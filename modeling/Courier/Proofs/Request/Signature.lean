import Courier.Request

/-!
# What a signature binds

The signed text of a header is twelve pieces, one after the other and with nothing between them.
Headers whose pieces have the same lengths, all of them or all but one, have the same text only if
all signed fields are the same. Where two pieces change their lengths, characters can move from one
field to another: the text and with it the signature stay.
-/
namespace Courier

/-- A number is known from its decimals. -/
theorem toString_injective {m n : Nat} (h : toString m = toString n) : m = n := by
  have hd := congrArg (fun s : String => Nat.ofDigitChars 10 s.toList 0) h
  simpa [Nat.toList_repr, Nat.ofDigitChars_ten_toDigits] using hd

namespace Bytes

theorem hexDigit_injective {a b : UInt8} (ha : a.toNat < 16) (hb : b.toNat < 16)
    (h : hexDigit a = hexDigit b) : a = b := by
  have hall : ∀ i j : Fin 16, hexDigit (UInt8.ofNat i) = hexDigit (UInt8.ofNat j) → i = j := by
    decide
  have hij := hall ⟨a.toNat, ha⟩ ⟨b.toNat, hb⟩ (by simpa using h)
  exact UInt8.toNat_inj.1 (Fin.mk.inj hij)

theorem hexByte_injective {a b : UInt8} (h : hexByte a = hexByte b) : a = b := by
  have hhigh (x : UInt8) : (x >>> 4).toNat = x.toNat / 16 := by
    simp [UInt8.toNat_shiftRight, Nat.shiftRight_eq_div_pow]
  have hlow (x : UInt8) : (x &&& 15).toNat = x.toNat % 16 := by
    rw [UInt8.toNat_and]
    exact Nat.and_two_pow_sub_one_eq_mod x.toNat 4
  have ha := a.toNat_lt
  have hb := b.toNat_lt
  simp only [hexByte, List.cons.injEq, and_true] at h
  have h1 := congrArg UInt8.toNat
    (hexDigit_injective (by rw [hhigh]; omega) (by rw [hhigh]; omega) h.1)
  have h2 := congrArg UInt8.toNat
    (hexDigit_injective (by rw [hlow]; omega) (by rw [hlow]; omega) h.2)
  rw [hhigh, hhigh] at h1
  rw [hlow, hlow] at h2
  exact UInt8.toNat_inj.1 (by omega)

/-- Bytes are known from their hexadecimal text. -/
theorem hex_injective {a b : ByteArray} (h : hex a = hex b) : a = b := by
  have hlist : ∀ l m : List UInt8, l.flatMap hexByte = m.flatMap hexByte → l = m := by
    intro l
    induction l with
    | nil =>
      intro m hm
      cases m with
      | nil => rfl
      | cons y m => simp [hexByte] at hm
    | cons x l ih =>
      intro m hm
      cases m with
      | nil => simp [hexByte] at hm
      | cons y m =>
        rw [List.flatMap_cons, List.flatMap_cons] at hm
        obtain ⟨hxy, hrest⟩ := List.append_inj hm rfl
        rw [hexByte_injective hxy, ih m hrest]
  have hdata := hlist _ _ (String.ofList_injective h)
  exact ByteArray.ext (Array.toList_inj.1 hdata)

theorem hex_ne_empty {b : ByteArray} (h : b.size ≠ 0) : hex b ≠ "" := by
  intro he
  have : hex b = hex .empty := he
  rw [hex_injective this] at h
  exact h rfl

end Bytes

/-- Two texts that are not told apart by their hashes. -/
structure Digest.Sha256.Collide (a b : ByteArray) : Prop where
  ne : a ≠ b
  hash : Sha256.hash a = Sha256.hash b

namespace RequestHeader

/-- The header without the three fields that are not signed. -/
def signedPart (h : RequestHeader) : RequestHeader := { h with callee := "", ip := "", sign := "" }

@[simp] theorem signedPart_signed (h : RequestHeader) (secret : String) :
    (h.signed secret).signedPart = h.signedPart := rfl

/-- The pieces of the signed text. -/
def signedPieces (h : RequestHeader) (secret : String) : List String :=
  [toString h.appId.toNat, secret, toString h.requestType.toNat, toString h.mode.number,
    toString h.id.toNat, h.traceId, toString h.timestamp.toNat, toString h.timeoutMillis.toNat,
    h.caller, if h.compress then "1" else "0", toString h.nonce.toNat, toString h.version.toNat]

theorem toList_signedText (h : RequestHeader) (secret : String) :
    (h.signedText secret).toList = ((h.signedPieces secret).map String.toList).flatten := by
  simp only [signedText, signedPieces, String.toList_append, List.map_cons, List.map_nil,
    List.flatten_cons, List.flatten_nil, List.append_nil, List.append_assoc]

/-- Nothing but the signed fields enters the text. -/
theorem signedText_congr {h h' : RequestHeader} (hp : h.signedPart = h'.signedPart)
    (secret : String) : h.signedText secret = h'.signedText secret := by
  have ht : h.signedPart.signedText secret = h'.signedPart.signedText secret := by rw [hp]
  exact ht

/-- The pieces tell all signed fields. -/
theorem signedPart_of_signedPieces {h h' : RequestHeader} {secret : String}
    (hp : h.signedPieces secret = h'.signedPieces secret) : h.signedPart = h'.signedPart := by
  simp only [signedPieces, List.cons.injEq, and_true, true_and] at hp
  obtain ⟨happ, htype, hmode, hid, htrace, htime, hlimit, hcaller, hcompress, hnonce, hversion⟩ :=
    hp
  have happ := UInt64.toNat_inj.1 (toString_injective happ)
  have htype := UInt32.toNat_inj.1 (toString_injective htype)
  have hmode := QueryMode.number_injective (toString_injective hmode)
  have hid := UInt64.toNat_inj.1 (toString_injective hid)
  have htime := UInt64.toNat_inj.1 (toString_injective htime)
  have hlimit := UInt32.toNat_inj.1 (toString_injective hlimit)
  have hnonce := UInt32.toNat_inj.1 (toString_injective hnonce)
  have hversion := UInt32.toNat_inj.1 (toString_injective hversion)
  have hcompress : h.compress = h'.compress := by
    cases hc : h.compress <;> cases hc' : h'.compress <;> simp [hc, hc'] at hcompress ⊢
  simp only [signedPart, happ, htype, hmode, hid, htrace, htime, hlimit, hcaller, hcompress, hnonce,
    hversion]

/-- Pieces of one text that agree in all lengths but one agree in that one too. -/
theorem lengths_of_eraseIdx {a b : List (List Char)} {i : Nat} (hl : a.length = b.length)
    (hf : a.flatten.length = b.flatten.length)
    (he : (a.map List.length).eraseIdx i = (b.map List.length).eraseIdx i) :
    a.map List.length = b.map List.length := by
  induction a generalizing b i with
  | nil =>
    obtain rfl := List.length_eq_zero_iff.1 hl.symm
    rfl
  | cons x a ih =>
    cases b with
    | nil => simp at hl
    | cons y b =>
      simp only [List.length_cons, Nat.add_right_cancel_iff, List.flatten_cons, List.length_append]
        at hl hf
      cases i with
      | zero =>
        have hrest : a.map List.length = b.map List.length := he
        rw [List.length_flatten, List.length_flatten, hrest] at hf
        rw [List.map_cons, List.map_cons, hrest, Nat.add_right_cancel hf]
      | succ i =>
        obtain ⟨hxy, hrest⟩ := List.cons.inj he
        rw [hxy] at hf
        rw [List.map_cons, List.map_cons, hxy, ih hl (Nat.add_left_cancel hf) hrest]

/-- Pieces that agree in their lengths, all of them or all but one, make the same text only if they
are the same. -/
theorem signedText_eq_iff {h h' : RequestHeader} {secret : String} {i : Nat}
    (hl : ((h.signedPieces secret).map String.length).eraseIdx i =
      ((h'.signedPieces secret).map String.length).eraseIdx i) :
    h.signedText secret = h'.signedText secret ↔ h.signedPart = h'.signedPart := by
  constructor
  · intro ht
    have hflat := congrArg String.toList ht
    rw [toList_signedText, toList_signedText] at hflat
    have hlengths (g : RequestHeader) :
        ((g.signedPieces secret).map String.toList).map List.length =
        (g.signedPieces secret).map String.length := by
      rw [List.map_map]
      exact List.map_congr_left fun s _ => String.length_toList
    rw [← hlengths, ← hlengths] at hl
    have hsame := lengths_of_eraseIdx (by simp [signedPieces]) (congrArg List.length hflat) hl
    have hpieces : (h.signedPieces secret).map String.toList =
        (h'.signedPieces secret).map String.toList := List.eq_iff_flatten_eq.2 ⟨hflat, hsame⟩
    have hinj : ∀ s t : String, s.toList = t.toList → s = t := fun _ _ => String.toList_injective
    exact signedPart_of_signedPieces ((List.map_inj_right hinj).1 hpieces)
  · intro hp
    exact signedText_congr hp secret

/-- A change of one piece is a change of one length at most. -/
theorem lengths_of_set {h h' : RequestHeader} {secret piece : String} {i : Nat}
    (hp : h'.signedPieces secret = (h.signedPieces secret).set i piece) :
    ((h'.signedPieces secret).map String.length).eraseIdx i =
      ((h.signedPieces secret).map String.length).eraseIdx i := by
  rw [hp, List.map_set, List.eraseIdx_set_eq]

/-- A header verifies just if it carries its signature. -/
theorem verifies_iff {h : RequestHeader} {secret : String} :
    h.verifies secret = true ↔ h.sign = h.signature secret := by
  have hne : h.signature secret ≠ "" := Bytes.hex_ne_empty (by simp)
  simp only [verifies, Bool.and_eq_true, bne_iff_ne, beq_iff_eq]
  exact ⟨And.right, fun hs => ⟨hs ▸ hne, hs⟩⟩

theorem verifies_signed (h : RequestHeader) (secret : String) :
    (h.signed secret).verifies secret = true := verifies_iff.2 rfl

/-- A header under the signature of another verifies just if it has the same text, or one that
collides with it. -/
theorem verifies_iff_of_sign {h h' : RequestHeader} {secret : String}
    (hv : h.verifies secret = true) (hs : h'.sign = h.sign) :
    h'.verifies secret = true ↔ h'.signedText secret = h.signedText secret ∨
      Digest.Sha256.Collide (h'.signedText secret).toUTF8 (h.signedText secret).toUTF8 := by
  rw [verifies_iff, hs, verifies_iff.1 hv]
  constructor
  · intro hsig
    have hhash := Bytes.hex_injective hsig
    by_cases ht : h'.signedText secret = h.signedText secret
    · exact .inl ht
    · exact .inr ⟨fun hb => ht (String.toByteArray_inj.1 hb), hhash.symm⟩
  · rintro (ht | hc)
    · rw [signature, signature, ht]
    · rw [signature, signature, hc.hash]

/-- Under one signature, a header verifies for the secret of another just if the two have the same
text, or texts that collide. If their pieces agree in their lengths, all or all but one, the texts
are the same just if all signed fields are: so it is whenever one field is changed. -/
theorem signature_binds (h h' : RequestHeader) (secret : String) :
    (h.verifies secret = true → h'.sign = h.sign →
      (h'.verifies secret = true ↔ h'.signedText secret = h.signedText secret ∨
        Digest.Sha256.Collide (h'.signedText secret).toUTF8 (h.signedText secret).toUTF8)) ∧
    ∀ i, ((h'.signedPieces secret).map String.length).eraseIdx i =
        ((h.signedPieces secret).map String.length).eraseIdx i →
      (h'.signedText secret = h.signedText secret ↔ h'.signedPart = h.signedPart) :=
  ⟨verifies_iff_of_sign, fun _ => signedText_eq_iff⟩

/-- A header signed with a limit of a second. -/
def signedSecond : RequestHeader := ({ timeoutMillis := 1000 } : RequestHeader).signed "s"

/-- The limit of a signed header is brought down to 50, which is shorter by two digits: the text is
another one, and the header verifies only if the two texts collide. -/
theorem signature_binds_limit :
    let changed := { signedSecond with timeoutMillis := 50 }
    signedSecond.verifies "s" = true ∧ changed.signedText "s" ≠ signedSecond.signedText "s" ∧
      (changed.verifies "s" = true ↔
        Digest.Sha256.Collide (changed.signedText "s").toUTF8
          (signedSecond.signedText "s").toUTF8) := by
  intro changed
  have hv := verifies_signed { timeoutMillis := 1000 } "s"
  have hl : ((changed.signedPieces "s").map String.length).eraseIdx 7 =
      ((signedSecond.signedPieces "s").map String.length).eraseIdx 7 := lengths_of_set rfl
  obtain ⟨hverifies, htext⟩ := signature_binds signedSecond changed "s"
  have hne : changed.signedText "s" ≠ signedSecond.signedText "s" := by
    rw [ne_eq, htext 7 hl]
    simp [changed, signedSecond, signed, signedPart]
  refine ⟨hv, hne, ?_⟩
  rw [hverifies hv rfl]
  exact or_iff_right hne

/-- A header signed with the number 12. -/
def signedTwelve : RequestHeader := ({ id := 12 } : RequestHeader).signed "s"

/-- A digit moves from the number of a request into its trace: the text is the same, and the
signature stays valid. -/
theorem verifies_moved_digit :
    signedTwelve.verifies "s" = true ∧
    { signedTwelve with id := 1, traceId := "2" }.signedPart ≠ signedTwelve.signedPart ∧
    { signedTwelve with id := 1, traceId := "2" }.signedText "s" = signedTwelve.signedText "s" ∧
    { signedTwelve with id := 1, traceId := "2" }.verifies "s" = true := by
  have hv : signedTwelve.verifies "s" = true := verifies_signed { id := 12 } "s"
  have hne :
      { signedTwelve with id := 1, traceId := "2" }.signedPart ≠ signedTwelve.signedPart := by
    simp [signedTwelve, signed, signedPart]
  have hpart : signedTwelve.signedPart = ({ id := 12 } : RequestHeader).signedPart :=
    signedPart_signed { id := 12 } "s"
  have htext : { signedTwelve with id := 1, traceId := "2" }.signedText "s" =
      signedTwelve.signedText "s" := by
    rw [signedText_congr hpart "s"]
    decide +kernel
  have hsign : { signedTwelve with id := 1, traceId := "2" }.sign = signedTwelve.sign := rfl
  have hverifies := verifies_iff_of_sign hv hsign
  exact ⟨hv, hne, htext, hverifies.2 (.inl htext)⟩

end RequestHeader

end Courier
