import ProviderDiscovery.Text.Utf8

/-!
# The reader of UTF-8 inverts the writer

The reader takes single bytes and knows nothing of whole characters. Two laws tie it to the
standard encoding: it accepts exactly the bytes of texts, and then gives the text back
(`decode_eq_some_iff`); and it can be cut at every ASCII byte (`decode_append_cons`), because no
longer character holds one. The second law is what makes the lines of a file decodable one by one.
-/

namespace ProviderDiscovery.Text.Utf8

/-! ### Single bytes -/

theorem decodeFrom_cons (s : State) (b : UInt8) (rest : List UInt8) :
    decodeFrom s (b :: rest) =
      match step s b with
      | .char c => (decodeFrom .start rest).map (c :: ·)
      | .continue t => decodeFrom t rest
      | .invalid => none := by
  cases s <;> rfl

/-- What the **first byte** of a character leads to, by its number. The range of the second byte
excludes longer forms than necessary, surrogates and numbers behind the last code point. -/
inductive Leads (b : UInt8) : Step → Prop where
  | ascii (h : b.toNat ≤ 0x7f) : Leads b (.char (Char.ofNat b.toNat))
  | two (h : 0xc2 ≤ b.toNat ∧ b.toNat ≤ 0xdf) :
      Leads b (.continue (.inside 0 (b.toNat - 0xc0) 0x80 0xbf))
  | three {low high : UInt8} (h : 0xe0 ≤ b.toNat ∧ b.toNat ≤ 0xef)
      (hlow : b.toNat = 0xe0 ∧ low.toNat = 0xa0 ∨ b.toNat ≠ 0xe0 ∧ low.toNat = 0x80)
      (hhigh : b.toNat = 0xed ∧ high.toNat = 0x9f ∨ b.toNat ≠ 0xed ∧ high.toNat = 0xbf) :
      Leads b (.continue (.inside 1 (b.toNat - 0xe0) low high))
  | four {low high : UInt8} (h : 0xf0 ≤ b.toNat ∧ b.toNat ≤ 0xf4)
      (hlow : b.toNat = 0xf0 ∧ low.toNat = 0x90 ∨ b.toNat ≠ 0xf0 ∧ low.toNat = 0x80)
      (hhigh : b.toNat = 0xf4 ∧ high.toNat = 0x8f ∨ b.toNat ≠ 0xf4 ∧ high.toNat = 0xbf) :
      Leads b (.continue (.inside 2 (b.toNat - 0xf0) low high))
  | invalid (h : 0x7f < b.toNat ∧ b.toNat < 0xc2 ∨ 0xf4 < b.toNat) : Leads b .invalid

theorem leads_first (b : UInt8) : Leads b (first b) := by
  unfold first
  simp only [UInt8.le_iff_toNat_le, UInt8.lt_iff_toNat_lt, ← UInt8.toNat_inj, UInt8.reduceToNat]
  split
  · exact .ascii ‹_›
  split
  · exact .invalid (.inl (by omega))
  split
  · exact .two (by omega)
  split
  · rename_i h
    have hlead : Leads b (.continue (.inside 1 (b.toNat - 0xe0) 0xa0 0xbf)) :=
      .three (by omega) (.inl ⟨h, rfl⟩) (.inr ⟨by omega, rfl⟩)
    rwa [h] at hlead
  split
  · rename_i h
    have hlead : Leads b (.continue (.inside 1 (b.toNat - 0xe0) 0x80 0x9f)) :=
      .three (by omega) (.inr ⟨by omega, rfl⟩) (.inl ⟨h, rfl⟩)
    rwa [h] at hlead
  split
  · exact .three (by omega) (.inr ⟨by omega, rfl⟩) (.inr ⟨by omega, rfl⟩)
  split
  · rename_i h
    have hlead : Leads b (.continue (.inside 2 (b.toNat - 0xf0) 0x90 0xbf)) :=
      .four (by omega) (.inl ⟨h, rfl⟩) (.inr ⟨by omega, rfl⟩)
    rwa [h] at hlead
  split
  · exact .four (by omega) (.inr ⟨by omega, rfl⟩) (.inr ⟨by omega, rfl⟩)
  split
  · rename_i h
    have hlead : Leads b (.continue (.inside 2 (b.toNat - 0xf0) 0x80 0x8f)) :=
      .four (by omega) (.inr ⟨by omega, rfl⟩) (.inl ⟨h, rfl⟩)
    rwa [h] at hlead
  · exact .invalid (.inr (by omega))

/-- Whether a byte is out of a range, by its number. -/
theorem out_of_range_iff {low high b : UInt8} :
    (b < low || high < b) = true ↔ ¬(low.toNat ≤ b.toNat ∧ b.toNat ≤ high.toNat) := by
  simp only [Bool.or_eq_true, decide_eq_true_eq, UInt8.lt_iff_toNat_lt]
  omega

/-- Inside a character the next byte has to be in the range that is awaited. -/
theorem decodeFrom_inside_iff {more bits : Nat} {low high : UInt8} {bytes : List UInt8}
    {chars : List Char} :
    decodeFrom (.inside more bits low high) bytes = some chars ↔
      ∃ b rest, bytes = b :: rest ∧ (low.toNat ≤ b.toNat ∧ b.toNat ≤ high.toNat) ∧
        (match more with
          | 0 => (decode rest).map (Char.ofNat (bits * 64 + (b.toNat - 0x80)) :: ·)
          | n + 1 => decodeFrom (.inside n (bits * 64 + (b.toNat - 0x80)) 0x80 0xbf) rest) =
            some chars := by
  cases bytes with
  | nil => simp [decodeFrom]
  | cons b rest =>
    rw [decodeFrom_cons, step]
    by_cases hrange : low.toNat ≤ b.toNat ∧ b.toNat ≤ high.toNat
    · rw [if_neg (by rw [out_of_range_iff]; exact not_not_intro hrange)]
      constructor
      · intro h
        refine ⟨b, rest, rfl, hrange, ?_⟩
        cases more <;> exact h
      · rintro ⟨b, rest, ⟨⟩, -, h⟩
        cases more <;> exact h
    · rw [if_pos (out_of_range_iff.mpr hrange)]
      constructor
      · intro h
        cases h
      · rintro ⟨b, rest, ⟨⟩, hb, -⟩
        exact absurd hb hrange

/-! ### Written characters -/

/-- The bytes of the code point `v`, by their numbers. -/
inductive Writes (v : Nat) : List UInt8 → Prop where
  | one {a : UInt8} (h : v ≤ 0x7f) (ha : a.toNat = v) : Writes v [a]
  | two {a b : UInt8} (h : 0x7f < v ∧ v ≤ 0x7ff) (ha : a.toNat = v / 64 + 0xc0)
      (hb : b.toNat = v % 64 + 0x80) : Writes v [a, b]
  | three {a b c : UInt8} (h : 0x7ff < v ∧ v ≤ 0xffff) (ha : a.toNat = v / 4096 + 0xe0)
      (hb : b.toNat = v / 64 % 64 + 0x80) (hc : c.toNat = v % 64 + 0x80) : Writes v [a, b, c]
  | four {a b c d : UInt8} (h : 0xffff < v) (ha : a.toNat = v / 262144 + 0xf0)
      (hb : b.toNat = v / 4096 % 64 + 0x80) (hc : c.toNat = v / 64 % 64 + 0x80)
      (hd : d.toNat = v % 64 + 0x80) : Writes v [a, b, c, d]

theorem writes_utf8EncodeChar (c : Char) : Writes c.toNat (String.utf8EncodeChar c) := by
  have hc : c.val.toNat < 0xd800 ∨ 0xdfff < c.val.toNat ∧ c.val.toNat < 0x110000 := c.valid
  have key : ∀ {n m : Nat}, n < 256 → n = m → (UInt8.ofNat n).toNat = m := fun hn hm => by
    rw [UInt8.toNat_ofNat', Nat.mod_eq_of_lt hn, hm]
  unfold String.utf8EncodeChar Char.toNat
  generalize c.val.toNat = v at hc
  simp only
  split
  · exact .one ‹_› (key (by omega) rfl)
  split
  · exact .two (by omega) (key (by omega) (by omega)) (key (by omega) rfl)
  split
  · exact .three (by omega) (key (by omega) (by omega)) (key (by omega) rfl) (key (by omega) rfl)
  · exact .four (by omega) (key (by omega) (by omega)) (key (by omega) rfl) (key (by omega) rfl)
      (key (by omega) rfl)

/-- The bytes of a code point are settled by their numbers. -/
theorem Writes.unique {v : Nat} {xs ys : List UInt8} (hx : Writes v xs) (hy : Writes v ys) :
    xs = ys := by
  cases hx <;> cases hy <;> first | omega | skip
  all_goals simp only [List.cons.injEq, ← UInt8.toNat_inj, and_true]
  all_goals omega

/-- A character that was read from bytes of its number was written in these bytes. -/
theorem utf8EncodeChar_ofNat {v : Nat} {xs : List UInt8} (hx : Writes v xs)
    (hv : v < 0xd800 ∨ 0xdfff < v ∧ v < 0x110000) : String.utf8EncodeChar (Char.ofNat v) = xs := by
  have hnumber : (Char.ofNat v).toNat = v := by
    rw [Char.ofNat, dif_pos hv]
    rfl
  have hw := writes_utf8EncodeChar (Char.ofNat v)
  rw [hnumber] at hw
  exact hw.unique hx

/-- A character that is read first was written first. -/
theorem eq_append_of_decode {bytes : List UInt8} {c : Char} {cs : List Char}
    (h : decode bytes = some (c :: cs)) :
    ∃ rest, bytes = String.utf8EncodeChar c ++ rest ∧ decode rest = some cs := by
  have hrest : ∀ {v : Nat} {rest : List UInt8},
      (decode rest).map (Char.ofNat v :: ·) = some (c :: cs) →
        Char.ofNat v = c ∧ decode rest = some cs := fun h => by
    obtain ⟨cs', hcs, heq⟩ := Option.map_eq_some_iff.mp h
    obtain ⟨hc, rfl⟩ := List.cons.inj heq
    exact ⟨hc, hcs⟩
  cases bytes with
  | nil => cases h
  | cons a rest =>
    rw [decode, decodeFrom_cons, step] at h
    have hlead := leads_first a
    generalize first a = s at hlead h
    cases hlead with
    | ascii ha =>
      obtain ⟨rfl, hcs⟩ := hrest h
      exact ⟨rest, by rw [utf8EncodeChar_ofNat (.one ha rfl) (by omega)]; rfl, hcs⟩
    | two ha =>
      obtain ⟨b, rest, rfl, hb, h⟩ := decodeFrom_inside_iff.mp h
      obtain ⟨rfl, hcs⟩ := hrest h
      simp only [UInt8.reduceToNat] at hb
      have hw : Writes ((a.toNat - 0xc0) * 64 + (b.toNat - 0x80)) [a, b] :=
        .two (by omega) (by omega) (by omega)
      exact ⟨rest, by rw [utf8EncodeChar_ofNat hw (by omega)]; rfl, hcs⟩
    | three ha hlow hhigh =>
      obtain ⟨b, rest, rfl, hb, h⟩ := decodeFrom_inside_iff.mp h
      obtain ⟨d, rest, rfl, hd, h⟩ := decodeFrom_inside_iff.mp h
      obtain ⟨rfl, hcs⟩ := hrest h
      simp only [UInt8.reduceToNat] at hd
      have hw : Writes (((a.toNat - 0xe0) * 64 + (b.toNat - 0x80)) * 64 + (d.toNat - 0x80))
          [a, b, d] := .three (by omega) (by omega) (by omega) (by omega)
      exact ⟨rest, by rw [utf8EncodeChar_ofNat hw (by omega)]; rfl, hcs⟩
    | four ha hlow hhigh =>
      obtain ⟨b, rest, rfl, hb, h⟩ := decodeFrom_inside_iff.mp h
      obtain ⟨d, rest, rfl, hd, h⟩ := decodeFrom_inside_iff.mp h
      obtain ⟨e, rest, rfl, he, h⟩ := decodeFrom_inside_iff.mp h
      obtain ⟨rfl, hcs⟩ := hrest h
      simp only [UInt8.reduceToNat] at hd he
      have hw : Writes ((((a.toNat - 0xf0) * 64 + (b.toNat - 0x80)) * 64 + (d.toNat - 0x80)) * 64 +
          (e.toNat - 0x80)) [a, b, d, e] :=
        .four (by omega) (by omega) (by omega) (by omega) (by omega)
      exact ⟨rest, by rw [utf8EncodeChar_ofNat hw (by omega)]; rfl, hcs⟩
    | invalid ha => cases h

/-- A character that was written first is read first. -/
theorem decode_utf8EncodeChar_append {c : Char} {rest : List UInt8} {cs : List Char}
    (h : decode rest = some cs) : decode (String.utf8EncodeChar c ++ rest) = some (c :: cs) := by
  have hw := writes_utf8EncodeChar c
  have hc : c.toNat < 0xd800 ∨ 0xdfff < c.toNat ∧ c.toNat < 0x110000 := c.valid
  have hread : ∀ {v : Nat}, v = c.toNat →
      (decode rest).map (Char.ofNat v :: ·) = some (c :: cs) := fun hv => by
    rw [h, hv, Char.ofNat_toNat, Option.map_some]
  generalize String.utf8EncodeChar c = xs at hw
  cases hw with
  | @one a hv ha =>
    rw [List.cons_append, decode, decodeFrom_cons, step]
    have hlead := leads_first a
    generalize first a = s at hlead
    cases hlead with
    | ascii => exact hread ha
    | two h | three h | four h | invalid h => omega
  | @two a b hv ha hb =>
    rw [List.cons_append, decode, decodeFrom_cons, step]
    have hlead := leads_first a
    generalize first a = s at hlead
    cases hlead with
    | two h =>
      refine decodeFrom_inside_iff.mpr ⟨b, rest, rfl, ?_, hread (by omega)⟩
      simp only [UInt8.reduceToNat]
      omega
    | ascii h | three h | four h | invalid h => omega
  | @three a b d hv ha hb hd =>
    rw [List.cons_append, decode, decodeFrom_cons, step]
    have hlead := leads_first a
    generalize first a = s at hlead
    cases hlead with
    | three h hlow hhigh =>
      refine decodeFrom_inside_iff.mpr ⟨b, d :: rest, rfl, by omega, ?_⟩
      refine decodeFrom_inside_iff.mpr ⟨d, rest, rfl, ?_, hread (by omega)⟩
      simp only [UInt8.reduceToNat]
      omega
    | ascii h | two h | four h | invalid h => omega
  | @four a b d e hv ha hb hd he =>
    rw [List.cons_append, decode, decodeFrom_cons, step]
    have hlead := leads_first a
    generalize first a = s at hlead
    cases hlead with
    | four h hlow hhigh =>
      refine decodeFrom_inside_iff.mpr ⟨b, d :: e :: rest, rfl, by omega, ?_⟩
      refine decodeFrom_inside_iff.mpr ⟨d, e :: rest, rfl, ?_, ?_⟩
      · simp only [UInt8.reduceToNat]
        omega
      refine decodeFrom_inside_iff.mpr ⟨e, rest, rfl, ?_, hread (by omega)⟩
      simp only [UInt8.reduceToNat]
      omega
    | ascii h | two h | three h | invalid h => omega

/-- A character that has begun is among those that are read. -/
theorem decodeFrom_inside_ne_nil (more bits : Nat) (low high : UInt8) (bytes : List UInt8) :
    decodeFrom (.inside more bits low high) bytes ≠ some [] := by
  induction more generalizing bits low high bytes with
  | zero =>
    intro h
    obtain ⟨b, rest, -, -, h⟩ := decodeFrom_inside_iff.mp h
    obtain ⟨cs, -, hcs⟩ := Option.map_eq_some_iff.mp h
    cases hcs
  | succ more ih =>
    intro h
    obtain ⟨b, rest, -, -, h⟩ := decodeFrom_inside_iff.mp h
    exact ih _ _ _ _ h

/-- Only no bytes are read as the empty text. -/
theorem decode_eq_some_nil_iff {bytes : List UInt8} : decode bytes = some [] ↔ bytes = [] := by
  refine ⟨fun h => ?_, fun h => by rw [h]; rfl⟩
  cases bytes with
  | nil => rfl
  | cons b rest =>
    rw [decode, decodeFrom_cons] at h
    cases hstep : step .start b with
    | char c =>
      rw [hstep] at h
      obtain ⟨cs, -, hcs⟩ := Option.map_eq_some_iff.mp h
      cases hcs
    | «continue» t =>
      rw [hstep] at h
      have hlead := leads_first b
      rw [show first b = .continue t from hstep] at hlead
      cases hlead <;> exact absurd h (decodeFrom_inside_ne_nil _ _ _ _ _)
    | invalid =>
      rw [hstep] at h
      cases h

/-- **Reading inverts writing**: the bytes that can be read are those in which a text is written,
and that text is read. -/
theorem decode_eq_some_iff {bytes : List UInt8} {chars : List Char} :
    decode bytes = some chars ↔ bytes = chars.flatMap String.utf8EncodeChar := by
  induction chars generalizing bytes with
  | nil => exact decode_eq_some_nil_iff
  | cons c cs ih =>
    rw [List.flatMap_cons]
    constructor
    · intro h
      obtain ⟨rest, rfl, hrest⟩ := eq_append_of_decode h
      rw [ih.mp hrest]
    · rintro rfl
      exact decode_utf8EncodeChar_append (ih.mpr rfl)

/-- The bytes of a text are read as the text. -/
theorem decode_encode (text : String) : decode (encode text) = some text.toList := by
  rw [decode_eq_some_iff, encode, String.toUTF8, ← String.utf8Encode_toList, List.utf8Encode,
    List.data_toByteArray]

/-- Bytes can be read exactly when they are valid as UTF-8. -/
theorem isSome_decode_iff {bytes : List UInt8} :
    (decode bytes).isSome ↔ bytes.toByteArray.IsValidUTF8 := by
  rw [Option.isSome_iff_exists]
  constructor
  · rintro ⟨chars, h⟩
    exact ⟨chars, by rw [decode_eq_some_iff.mp h]; rfl⟩
  · rintro ⟨chars, h⟩
    have hbytes := congrArg (·.data.toList) h
    simp only [List.utf8Encode, List.toList_data_toByteArray] at hbytes
    exact ⟨chars, decode_eq_some_iff.mpr hbytes⟩

/-! ### Cutting at an ASCII byte -/

/-- A state that no ASCII byte can go on with. -/
def State.IsAboveAscii : State → Prop
  | .start => True
  | .inside _ _ low _ => 0x80 ≤ low.toNat

theorem isAboveAscii_of_step {s t : State} {b : UInt8} (h : step s b = .continue t) :
    t.IsAboveAscii := by
  cases s with
  | start =>
    have hlead := leads_first b
    rw [show first b = .continue t from h] at hlead
    cases hlead with
    | two h => exact Nat.le_refl _
    | @three low high h hlow hhigh => exact (by omega : 0x80 ≤ low.toNat)
    | @four low high h hlow hhigh => exact (by omega : 0x80 ≤ low.toNat)
  | inside more bits low high =>
    rw [step] at h
    split at h
    · cases h
    · cases more with
      | zero => cases h
      | succ more =>
        cases h
        exact Nat.le_refl _

/-- An ASCII byte stands for its character wherever it stands. -/
theorem decodeFrom_append_cons {a : UInt8} (ha : a.toNat ≤ 0x7f) {s : State}
    (hs : s.IsAboveAscii) (front back : List UInt8) :
    decodeFrom s (front ++ a :: back) =
      (decodeFrom s front).bind fun cs =>
        (decode back).map fun ds => cs ++ Char.ofNat a.toNat :: ds := by
  induction front generalizing s with
  | nil =>
    rw [List.nil_append, decodeFrom_cons]
    cases s with
    | start =>
      have hlead := leads_first a
      have hstep : step .start a = .char (Char.ofNat a.toNat) := by
        rw [step]
        generalize first a = s at hlead
        cases hlead with
        | ascii h => rfl
        | two h | three h | four h | invalid h => omega
      rw [hstep]
      rfl
    | inside more bits low high =>
      have hlow : 0x80 ≤ low.toNat := hs
      rw [step, if_pos (out_of_range_iff.mpr (by omega))]
      rfl
  | cons b front ih =>
    rw [List.cons_append, decodeFrom_cons, decodeFrom_cons]
    cases hstep : step s b with
    | char c =>
      simp only [ih (s := .start) trivial]
      cases decodeFrom .start front <;> cases decode back <;> rfl
    | «continue» t => exact ih (isAboveAscii_of_step hstep)
    | invalid => rfl

/-- **A text can be cut at an ASCII byte**: the pieces are read one by one. -/
theorem decode_append_cons {a : UInt8} (ha : a.toNat ≤ 0x7f) (front back : List UInt8) :
    decode (front ++ a :: back) =
      (decode front).bind fun cs =>
        (decode back).map fun ds => cs ++ Char.ofNat a.toNat :: ds :=
  decodeFrom_append_cons ha (s := .start) trivial front back

end ProviderDiscovery.Text.Utf8
