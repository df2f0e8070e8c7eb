import Courier.Call
import Mathlib.Data.List.DropRight
import Mathlib.Data.List.Forall2

/-!
# Nodes from a list of addresses

An endpoint of the static selector is a list of addresses: the pieces between its commas, without
the blanks around them, empty ones left out. The selector fails just if there are none; otherwise it
gives the address whose number was drawn, whatever number that is. So a call that asks this selector
never meets a node without an address.
-/
namespace Courier

namespace Text

/-! ## Pieces -/

theorem splitOn_eq (c : Char) (cs : List Char) : splitOn c cs = cs.splitOn c := by
  induction cs with
  | nil => rfl
  | cons x rest ih =>
    rw [List.splitOn_cons_eq_if_modifyHead, splitOn, ih]
    by_cases h : x = c
    · simp [h]
    · cases hrest : rest.splitOn c with
      | nil => exact absurd hrest (List.splitOn_ne_nil c rest)
      | cons piece pieces => simp [h]

theorem not_mem_of_mem_splitOn {c : Char} {cs piece : List Char} (h : piece ∈ splitOn c cs) :
    c ∉ piece := by
  induction cs generalizing piece with
  | nil =>
    obtain rfl := List.mem_singleton.1 h
    exact List.not_mem_nil
  | cons x rest ih =>
    rw [splitOn] at h
    split at h
    next =>
      obtain rfl | h := List.mem_cons.1 h
      · exact List.not_mem_nil
      · exact ih h
    next hne =>
      split at h
      next =>
        obtain rfl := List.mem_singleton.1 h
        simpa using Ne.symm hne
      next first others hsplit =>
        have hfirst : c ∉ first := ih (hsplit ▸ List.mem_cons_self)
        obtain rfl | h := List.mem_cons.1 h
        · simp [Ne.symm hne, hfirst]
        · exact ih (hsplit ▸ List.mem_cons_of_mem _ h)

/-- The pieces of a text between its commas. -/
structure ArePieces (text : String) (pieces : List String) : Prop where
  joined : text = ",".intercalate pieces
  ne_nil : pieces ≠ []
  free : ∀ piece ∈ pieces, ',' ∉ piece.toList

theorem arePieces_iff {text : String} {pieces : List String} :
    ArePieces text pieces ↔ splitOn ',' text.toList = pieces.map String.toList := by
  rw [splitOn_eq]
  constructor
  · rintro ⟨rfl, hne, hfree⟩
    rw [String.toList_intercalate]
    exact List.splitOn_intercalate ',' (List.forall_mem_map.2 hfree) (by simpa using hne)
  · intro h
    refine ⟨?_, fun hnil => ?_, fun piece hp => ?_⟩
    · rw [← String.toList_inj, String.toList_intercalate, ← h]
      exact (List.intercalate_splitOn ',').symm
    · rw [hnil] at h
      exact List.splitOn_ne_nil _ _ h
    · have hin : piece.toList ∈ splitOn ',' text.toList := by
        rw [splitOn_eq, h]
        exact List.mem_map_of_mem hp
      exact not_mem_of_mem_splitOn hin

namespace Blank

/-! ## Trimming -/

/-- No blank stands at either end. -/
structure IsBare (cs : List Char) : Prop where
  first : ∀ c ∈ cs.head?, isBlank c = false
  last : ∀ c ∈ cs.getLast?, isBlank c = false

/-- The second text is the first one without the blanks around it. -/
def IsTrimmed (cs bare : List Char) : Prop :=
  IsBare bare ∧ ∃ front back, cs = front ++ bare ++ back ∧ (∀ c ∈ front, isBlank c = true) ∧
    ∀ c ∈ back, isBlank c = true

theorem dropWhile_append {front cs : List Char} (hf : ∀ c ∈ front, isBlank c = true)
    (hc : ∀ c ∈ cs.head?, isBlank c = false) : (front ++ cs).dropWhile isBlank = cs := by
  rw [List.dropWhile_append_of_pos hf]
  cases cs with
  | nil => rfl
  | cons c cs => exact List.dropWhile_cons_of_neg (by simpa using hc)

theorem isTrimmed_trimChars (cs : List Char) : IsTrimmed cs (trimChars cs) := by
  have htrim : trimChars cs = (cs.dropWhile isBlank).rdropWhile isBlank := rfl
  refine ⟨⟨?_, ?_⟩, cs.takeWhile isBlank, (cs.dropWhile isBlank).rtakeWhile isBlank, ?_, ?_, ?_⟩
  · intro c hc
    have hmid : c ∈ (cs.dropWhile isBlank).head? := by
      obtain ⟨back, hback⟩ := List.rdropWhile_prefix isBlank (cs.dropWhile isBlank)
      rw [← hback, ← htrim, List.head?_append]
      rw [Option.mem_def] at hc ⊢
      simp [hc]
    have hnot := List.head?_dropWhile_not isBlank cs
    rw [Option.mem_def] at hmid
    rw [hmid] at hnot
    exact hnot
  · intro c hc
    rw [htrim] at hc
    obtain ⟨hne, rfl⟩ := List.mem_getLast?_eq_getLast hc
    simpa using List.rdropWhile_last_not isBlank (cs.dropWhile isBlank) hne
  · rw [List.append_assoc, htrim, List.rdropWhile_append_rtakeWhile,
      List.takeWhile_append_dropWhile]
  · exact fun c hc => List.mem_takeWhile_imp hc
  · exact fun c hc => List.mem_rtakeWhile_imp hc

theorem trimChars_eq_iff {cs bare : List Char} : trimChars cs = bare ↔ IsTrimmed cs bare := by
  constructor
  · rintro rfl
    exact isTrimmed_trimChars cs
  · rintro ⟨⟨hfirst, hlast⟩, front, back, rfl, hfront, hback⟩
    rw [trimChars, List.append_assoc]
    cases bare with
    | nil =>
      have hnone : (front ++ ([] ++ back)).dropWhile isBlank = [] := by
        rw [List.dropWhile_eq_nil_iff]
        intro c hc
        obtain hc | hc := List.mem_append.1 hc
        · exact hfront c hc
        · exact hback c hc
      rw [hnone]
      rfl
    | cons c bare =>
      rw [dropWhile_append hfront (by simpa using hfirst), List.reverse_append,
        dropWhile_append (by simpa using hback) (by rwa [List.head?_reverse]), List.reverse_reverse]

end Blank

end Text

namespace AddressList
open Text Text.Blank
variable {network endpoint : String} {draw : Nat}

/-! ## Addresses -/

/-- The list of addresses that an endpoint is: its pieces without the blanks around them, empty ones
left out. -/
def Lists (endpoint : String) (list : List String) : Prop :=
  ∃ pieces bare : List String, ArePieces endpoint pieces ∧
    List.Forall₂ (fun piece a => IsTrimmed piece.toList a.toList) pieces bare ∧
    list = bare.filter (· ≠ "")

theorem filterMap_addresses (l : List (List Char)) :
    l.filterMap (fun cs => if cs.isEmpty then none else some (String.ofList cs)) =
      (l.map String.ofList).filter (· ≠ "") := by
  induction l with
  | nil => rfl
  | cons cs rest ih =>
    rw [List.filterMap_cons, List.map_cons, List.filter_cons, ih]
    by_cases h : cs = []
    · simp [h]
    · simp [h, String.ofList_eq_empty_iff]

theorem forall₂_isTrimmed_iff {pieces bare : List String} :
    List.Forall₂ (fun piece a => IsTrimmed piece.toList a.toList) pieces bare ↔
      pieces.map (fun piece => String.ofList (trimChars piece.toList)) = bare := by
  have hone (piece a : String) :
      IsTrimmed piece.toList a.toList ↔ String.ofList (trimChars piece.toList) = a := by
    rw [← trimChars_eq_iff, ← String.toList_inj, String.toList_ofList]
  simp only [hone]
  rw [← List.forall₂_map_left_iff (R := (· = ·)), List.forall₂_eq_eq_eq]

theorem lists_iff {list : List String} : Lists endpoint list ↔ list = addresses endpoint := by
  have haddresses {pieces : List String} (h : ArePieces endpoint pieces) :
      (pieces.map fun piece => String.ofList (trimChars piece.toList)).filter (· ≠ "") =
        addresses endpoint := by
    rw [addresses, arePieces_iff.1 h, filterMap_addresses, List.map_map, List.map_map]
    rfl
  constructor
  · rintro ⟨pieces, bare, hpieces, hbare, rfl⟩
    rw [← forall₂_isTrimmed_iff.1 hbare]
    exact haddresses hpieces
  · rintro rfl
    have hpieces : ArePieces endpoint ((splitOn ',' endpoint.toList).map String.ofList) :=
      arePieces_iff.2 (by simp)
    exact ⟨_, _, hpieces, forall₂_isTrimmed_iff.2 rfl, (haddresses hpieces).symm⟩

/-- An address is not empty, has no comma in it and no blank at either end. -/
theorem bare_of_mem_addresses {a : String} (h : a ∈ addresses endpoint) :
    a ≠ "" ∧ ',' ∉ a.toList ∧ IsBare a.toList := by
  rw [addresses, filterMap_addresses, List.mem_filter, List.mem_map] at h
  obtain ⟨⟨cs, hcs, rfl⟩, hne⟩ := h
  obtain ⟨piece, hpiece, rfl⟩ := List.mem_map.1 hcs
  obtain ⟨hbare, front, back, heq, -, -⟩ := isTrimmed_trimChars piece
  refine ⟨by simpa using hne, ?_, by rwa [String.toList_ofList]⟩
  rw [String.toList_ofList]
  intro hmem
  refine not_mem_of_mem_splitOn hpiece ?_
  rw [heq]
  exact List.mem_append_left _ (List.mem_append_right _ hmem)

theorem addresses_empty : addresses "" = [] := rfl

/-! ## Selection -/

/-- Without an address the selector fails. -/
theorem select_of_nil (h : addresses endpoint = []) (network : String) (draw : Nat) :
    ∃ why, select network endpoint draw = .error (.route ("ip selector: " ++ why)) := by
  unfold select
  split
  next => exact ⟨"service name is empty", rfl⟩
  next =>
    rw [h]
    exact ⟨"no address in endpoint " ++ Quoted.quote endpoint, rfl⟩

/-- With addresses it gives the one whose number is drawn. -/
theorem select_of_pos (h : 0 < (addresses endpoint).length) (network : String) (draw : Nat) :
    select network endpoint draw =
      .ok ⟨endpoint, network, (addresses endpoint).get ⟨draw % _, Nat.mod_lt draw h⟩, none⟩ := by
  have hne : endpoint ≠ "" := by
    rintro rfl
    exact absurd h (by simp [addresses_empty])
  rw [select, if_neg hne]
  split
  next hnil => exact absurd h (by simp [hnil])
  next a rest hcons => simp [hcons]

/-! ## Calls that ask the selector -/

/-- What a call says that was given a node without an address. -/
def noAddress (endpoint : String) : Fault :=
  .route ("selector returned a node with empty address for endpoint " ++ Quoted.quote endpoint)

/-- What the selector says itself is something else. -/
theorem select_ne_noAddress : select network endpoint draw ≠ .error (noAddress endpoint) := by
  intro h
  cases hlist : addresses endpoint with
  | nil =>
    obtain ⟨why, hwhy⟩ := select_of_nil hlist network draw
    rw [hwhy] at h
    have hreason : "ip selector: " ++ why =
        "selector returned a node with empty address for endpoint " ++ Quoted.quote endpoint :=
      Fault.route.inj (Except.error.inj h)
    have hchars := congrArg String.toList hreason
    simp at hchars
  | cons a rest =>
    rw [select_of_pos (by simp [hlist])] at h
    cases h

/-- A call that asks the selector meets no node without an address, also if its context is done
before the selector answers. -/
theorem judgeNode_ne_noAddress {σ : Type} (call : Call σ) {selected : Except Fault Node}
    (h : selected = select network call.endpoint draw ∨
      ∃ why : Done, selected = .error (why.fault .select))
    (done : Option Done) : (call.judgeNode selected done).1 ≠ .error (noAddress call.endpoint) := by
  obtain rfl | ⟨why, rfl⟩ := h
  · cases hs : select network call.endpoint draw with
    | error f =>
      intro hf
      exact select_ne_noAddress (hs.trans hf)
    | ok node =>
      have haddress : node.address ≠ "" := by
        cases hlist : addresses call.endpoint with
        | nil =>
          obtain ⟨why, hwhy⟩ := select_of_nil hlist network draw
          cases hs.symm.trans hwhy
        | cons a rest =>
          have hpos : 0 < (addresses call.endpoint).length := by simp [hlist]
          rw [select_of_pos hpos] at hs
          cases hs
          exact (bare_of_mem_addresses (List.getElem_mem _)).1
      simp only [Call.judgeNode, if_neg haddress]
      cases done with
      | none => nofun
      | some why => cases why <;> nofun
  · cases why <;> nofun

/-- The static selector over any endpoint. The endpoint is one list of addresses, each of them not
empty, without commas and without blanks at its ends. The selector fails, with a fault of routing,
just if the list is empty. Otherwise it gives a node for whatever is drawn: its address stands at a
place of the list, it carries the endpoint as it is and the network of the selector; and each place
of the list can be drawn. A call that asks this selector never says that its node has no address. -/
theorem select_from_list (network endpoint : String) :
    ∃ list, (∀ other, Lists endpoint other ↔ other = list) ∧
      (∀ a ∈ list, a ≠ "" ∧ ',' ∉ a.toList ∧ IsBare a.toList) ∧
      (∀ draw, (∃ why, select network endpoint draw = .error (.route why)) ↔ list = []) ∧
      (∀ draw f, select network endpoint draw = .error f → ∃ why, f = .route why) ∧
      (list ≠ [] → ∀ draw, ∃ i, ∃ h : i < list.length,
        select network endpoint draw = .ok ⟨endpoint, network, list[i], none⟩) ∧
      (∀ i, ∀ h : i < list.length,
        select network endpoint i = .ok ⟨endpoint, network, list[i], none⟩) ∧
      ∀ (σ : Type) (call : Call σ) (selected : Except Fault Node) (draw : Nat) (done : Option Done),
        (selected = select network call.endpoint draw ∨
          ∃ why : Done, selected = .error (why.fault .select)) →
        (call.judgeNode selected done).1 ≠ .error (.route
          ("selector returned a node with empty address for endpoint " ++
            Quoted.quote call.endpoint)) := by
  refine ⟨addresses endpoint, fun other => lists_iff, fun a => bare_of_mem_addresses,
    fun draw => ?_, fun draw f hf => ?_, fun hne draw => ?_, fun i hi => ?_,
    fun σ call selected draw done h => ?_⟩
  · constructor
    · rintro ⟨why, hwhy⟩
      by_contra hne
      rw [select_of_pos (List.length_pos_iff.2 hne)] at hwhy
      cases hwhy
    · intro hnil
      obtain ⟨why, hwhy⟩ := select_of_nil hnil network draw
      exact ⟨_, hwhy⟩
  · by_cases hnil : addresses endpoint = []
    · obtain ⟨why, hwhy⟩ := select_of_nil hnil network draw
      exact ⟨_, Except.error.inj (hf.symm.trans hwhy)⟩
    · rw [select_of_pos (List.length_pos_iff.2 hnil)] at hf
      cases hf
  · exact ⟨_, _, select_of_pos (List.length_pos_iff.2 hne) network draw⟩
  · have h := select_of_pos (Nat.zero_lt_of_lt hi) network i
    simpa only [Nat.mod_eq_of_lt hi, List.get_eq_getElem] using h
  · exact judgeNode_ne_noAddress call h done

/-- Of five pieces two are addresses; blanks inside an address stay. -/
theorem select_from_list_blanks :
    Lists "\u00a0a b\u2003,, \t,c:1," ["a b", "c:1"] ∧
      select "tcp" "\u00a0a b\u2003,, \t,c:1," 1 =
        .ok ⟨"\u00a0a b\u2003,, \t,c:1,", "tcp", "c:1", none⟩ := by
  have hlists : Lists "\u00a0a b\u2003,, \t,c:1," ["a b", "c:1"] := lists_iff.2 (by decide)
  obtain ⟨list, hunique, -, -, -, -, hplace, -⟩ :=
    select_from_list "tcp" "\u00a0a b\u2003,, \t,c:1,"
  obtain rfl := (hunique _).1 hlists
  exact ⟨hlists, hplace 1 (by decide)⟩

end AddressList

end Courier
