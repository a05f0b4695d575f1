import ProviderDiscovery.Proofs.Candidates.Mentions
import ProviderDiscovery.Proofs.Configuration.Line
import ProviderDiscovery.Proofs.Text.Utf8

/-!
# The grammar of a configuration file

A file is well-formed when it is UTF-8 and each of its lines has the form of a line
(`Configuration.Lists`). The reader decodes and reads one line after the other, so the first line
that is not UTF-8 or has another form is the one that it blames (`Configuration.Blames`). A file is
UTF-8 exactly when its lines are (`isValid_iff_lines`): neither a line feed nor a carriage return
can stand inside a longer character.
-/

namespace ProviderDiscovery

/-! ### Lines and UTF-8 -/

namespace Text

/-- What holds of a segment exactly when it holds of the line, and holds of nothing, holds of all
lines exactly when it holds of all segments. -/
theorem forall_mem_linesOfSegments_iff {P : List UInt8 → Prop} (hnil : P [])
    (hdrop : ∀ line, P (dropReturn line) ↔ P line) (segs : List (List UInt8)) :
    (∀ line ∈ linesOfSegments segs, P line) ↔ ∀ s ∈ segs, P s := by
  induction segs with
  | nil => simp [linesOfSegments]
  | cons s rest ih =>
    cases rest with
    | nil =>
      by_cases hs : s = []
      · simp [linesOfSegments, hs, hnil]
      · simp [linesOfSegments, hs]
    | cons t more =>
      rw [linesOfSegments_cons (by simp), List.forall_mem_cons, List.forall_mem_cons, ih,
        hdrop]

namespace Utf8

/-- An ASCII byte cuts bytes that can be read into bytes that can be read. -/
theorem isSome_decode_append_cons_iff {a : UInt8} (ha : a.toNat ≤ 0x7f)
    (front back : List UInt8) :
    (decode (front ++ a :: back)).isSome ↔ (decode front).isSome ∧ (decode back).isSome := by
  rw [decode_append_cons ha]
  cases decode front <;> cases decode back <;> simp

/-- The carriage return at the end of a line does not matter. -/
theorem isSome_decode_dropReturn_iff (line : List UInt8) :
    (decode (dropReturn line)).isSome ↔ (decode line).isSome := by
  unfold dropReturn
  split
  · rename_i h
    obtain ⟨front, rfl⟩ := List.getLast?_eq_some_iff.mp h
    rw [List.dropLast_concat, isSome_decode_append_cons_iff (by decide)]
    exact (and_iff_left rfl).symm
  · rfl

/-- Line feeds between segments do not matter. -/
theorem isSome_decode_intercalate_iff {segs : List (List UInt8)} (hne : segs ≠ []) :
    (decode ([lineFeed].intercalate segs)).isSome ↔ ∀ s ∈ segs, (decode s).isSome := by
  induction segs with
  | nil => exact absurd rfl hne
  | cons s rest ih =>
    cases rest with
    | nil => simp
    | cons t more =>
      rw [List.intercalate_cons_cons, List.append_assoc, List.singleton_append,
        isSome_decode_append_cons_iff (by decide), List.forall_mem_cons, ih (by simp)]

end Utf8

/-- **A file is UTF-8 exactly when its lines are.** -/
theorem isValid_iff_lines (bytes : List UInt8) :
    bytes.toByteArray.IsValidUTF8 ↔
      ∀ line ∈ lines bytes, line.toByteArray.IsValidUTF8 := by
  simp only [← Utf8.isSome_decode_iff]
  rw [lines, forall_mem_linesOfSegments_iff (P := fun s => (Utf8.decode s).isSome) rfl
    Utf8.isSome_decode_dropReturn_iff,
    ← Utf8.isSome_decode_intercalate_iff (segments_ne_nil lineFeed bytes), intercalate_segments]

end Text

namespace Configuration

/-! ### The grammar -/

/-- The lines **list** names: each line is a text that has the form of a line, and the names are
those on the lines, in order and with repetitions. -/
inductive Lists : List (List UInt8) → List String → Prop where
  | nil : Lists [] []
  | cons {line : List UInt8} {text : List Char} {name? : Option String}
      {lines : List (List UInt8)} {names : List String}
      (htext : line = text.flatMap String.utf8EncodeChar) (hform : Line.Form text name?)
      (hrest : Lists lines names) : Lists (line :: lines) (name?.toList ++ names)

/-- What the line with the number `n` is **blamed** for: it is not UTF-8, or it is a text of
another form. -/
inductive Blames (n : Nat) (line : List UInt8) : FileFault → Prop where
  | undecodable (hbytes : ¬line.toByteArray.IsValidUTF8) : Blames n line .undecodable
  | malformed {text : List Char} {fault : LineFault}
      (htext : line = text.flatMap String.utf8EncodeChar) (hform : ∀ name?, ¬Line.Form text name?)
      (hfault : Line.Blames text fault) : Blames n line (.malformed n fault)

/-! ### The reader -/

/-- Behind a line of the right form the reader goes on. -/
theorem readLines_cons_of_form {n : Nat} {line : List UInt8} {text : List Char}
    {name? : Option String} (htext : line = text.flatMap String.utf8EncodeChar)
    (hform : Line.Form text name?) (rest : List (List UInt8)) :
    readLines n (line :: rest) = (readLines (n + 1) rest).map (name?.toList ++ ·) := by
  rw [readLines, Text.Utf8.decode_eq_some_iff.mpr htext]
  simp only [Line.read_eq_ok_iff.mpr hform]
  cases name? with
  | none => cases readLines (n + 1) rest <;> rfl
  | some name => rfl

/-- The reader stops at a line that is to blame. -/
theorem readLines_cons_of_blames {n : Nat} {line : List UInt8} {fault : FileFault}
    (h : Blames n line fault) (rest : List (List UInt8)) :
    readLines n (line :: rest) = .error fault := by
  cases h with
  | undecodable hbytes =>
    rw [← Text.Utf8.isSome_decode_iff, Bool.not_eq_true, Option.isSome_eq_false_iff,
      Option.isNone_iff_eq_none] at hbytes
    rw [readLines, hbytes]
  | malformed htext hform hfault =>
    rw [readLines, Text.Utf8.decode_eq_some_iff.mpr htext]
    simp only [Line.read_eq_error_iff.mpr ⟨hform, hfault⟩]

/-- A line has the right form, or it is to blame. -/
theorem form_or_blames (n : Nat) (line : List UInt8) :
    (∃ text name?, line = text.flatMap String.utf8EncodeChar ∧ Line.Form text name?) ∨
      ∃ fault, Blames n line fault := by
  cases h : Text.Utf8.decode line with
  | none =>
    refine .inr ⟨_, .undecodable ?_⟩
    rw [← Text.Utf8.isSome_decode_iff, h]
    exact Bool.false_ne_true
  | some text =>
    have htext := Text.Utf8.decode_eq_some_iff.mp h
    cases hread : Line.read text with
    | ok name? => exact .inl ⟨text, name?, htext, Line.read_eq_ok_iff.mp hread⟩
    | error fault =>
      obtain ⟨hform, hfault⟩ := Line.read_eq_error_iff.mp hread
      exact .inr ⟨_, .malformed htext hform hfault⟩

theorem readLines_of_lists {lines : List (List UInt8)} {names : List String}
    (h : Lists lines names) (n : Nat) : readLines n lines = .ok names := by
  induction h generalizing n with
  | nil => rfl
  | cons htext hform hrest ih =>
    rw [readLines_cons_of_form htext hform, ih]
    rfl

/-- Behind lines of the right form the reader goes on, and counts them. -/
theorem readLines_append_of_lists {earlier : List (List UInt8)} {names : List String}
    (h : Lists earlier names) (n : Nat) (later : List (List UInt8)) :
    readLines n (earlier ++ later) =
      (readLines (n + earlier.length) later).map (names ++ ·) := by
  induction h generalizing n with
  | nil => cases hl : readLines n later <;> simp [hl, Except.map]
  | cons htext hform hrest ih =>
    rw [List.cons_append, readLines_cons_of_form htext hform, ih, List.length_cons,
      Nat.add_right_comm n 1, Nat.add_assoc]
    cases readLines (n + (_ + 1)) later <;> simp [Except.map]

/-- The lines of a file list names, or the first line of another form is to blame. -/
theorem lists_or_blames (n : Nat) (lines : List (List UInt8)) :
    (∃ names, Lists lines names) ∨
      ∃ earlier line later fault, lines = earlier ++ line :: later ∧
        (∃ names, Lists earlier names) ∧ Blames (n + earlier.length) line fault := by
  induction lines generalizing n with
  | nil => exact .inl ⟨[], .nil⟩
  | cons line rest ih =>
    rcases form_or_blames n line with ⟨text, name?, htext, hform⟩ | ⟨fault, hblames⟩
    · rcases ih (n + 1) with ⟨names, hrest⟩ |
        ⟨earlier, bad, later, fault, rfl, ⟨names, hearlier⟩, hblames⟩
      · exact .inl ⟨_, .cons htext hform hrest⟩
      · refine .inr ⟨line :: earlier, bad, later, fault, rfl,
          ⟨_, .cons htext hform hearlier⟩, ?_⟩
        rwa [List.length_cons, Nat.add_comm earlier.length 1, ← Nat.add_assoc]
    · exact .inr ⟨[], line, rest, fault, rfl, ⟨[], .nil⟩, hblames⟩

/-- What the reader answers when a line is to blame behind lines of the right form. -/
theorem readLines_of_blames {n : Nat} {earlier later : List (List UInt8)} {line : List UInt8}
    {fault : FileFault} (hearlier : ∃ names, Lists earlier names)
    (h : Blames (n + earlier.length) line fault) :
    readLines n (earlier ++ line :: later) = .error fault := by
  obtain ⟨names, hearlier⟩ := hearlier
  rw [readLines_append_of_lists hearlier, readLines_cons_of_blames h]
  rfl

theorem readLines_eq_ok_iff {n : Nat} {lines : List (List UInt8)} {names : List String} :
    readLines n lines = .ok names ↔ Lists lines names := by
  refine ⟨fun h => ?_, fun h => readLines_of_lists h n⟩
  rcases lists_or_blames n lines with ⟨found, hlists⟩ |
    ⟨earlier, line, later, fault, rfl, hearlier, hblames⟩
  · obtain rfl := Except.ok.inj ((readLines_of_lists hlists n).symm.trans h)
    exact hlists
  · cases (readLines_of_blames hearlier hblames).symm.trans h

theorem readLines_eq_error_iff {n : Nat} {lines : List (List UInt8)} {fault : FileFault} :
    readLines n lines = .error fault ↔
      ∃ earlier line later, lines = earlier ++ line :: later ∧ (∃ names, Lists earlier names) ∧
        Blames (n + earlier.length) line fault := by
  constructor
  · intro h
    rcases lists_or_blames n lines with ⟨names, hlists⟩ |
      ⟨earlier, line, later, shown, rfl, hearlier, hblames⟩
    · cases (readLines_of_lists hlists n).symm.trans h
    · obtain rfl := Except.error.inj ((readLines_of_blames hearlier hblames).symm.trans h)
      exact ⟨earlier, line, later, rfl, hearlier, hblames⟩
  · rintro ⟨earlier, line, later, rfl, hearlier, hblames⟩
    exact readLines_of_blames hearlier hblames

/-- Lines that list names are UTF-8. -/
theorem Lists.isValid {lines : List (List UInt8)} {names : List String} (h : Lists lines names) :
    ∀ line ∈ lines, line.toByteArray.IsValidUTF8 := by
  induction h with
  | nil => simp
  | cons htext hform hrest ih =>
    refine List.forall_mem_cons.mpr ⟨?_, ih⟩
    rw [← Text.Utf8.isSome_decode_iff, Text.Utf8.decode_eq_some_iff.mpr htext]
    rfl

end Configuration

/-- Lines list names for a discovery if and only if they do by themselves. -/
theorem namesInLines_eq_ok_iff {capability : CapabilityId} {resource : ResourceId}
    {lines : List (List UInt8)} {names : List String} :
    namesInLines capability resource lines = .ok names ↔
      Configuration.readLines 1 lines = .ok names := by
  rw [namesInLines]
  rcases Configuration.readLines 1 lines with (_ | ⟨line, fault⟩) | found <;>
    simp [Except.mapError]

/-- The error of a discovery is the fault of the lines. -/
theorem namesInLines_eq_error_iff {capability : CapabilityId} {resource : ResourceId}
    {lines : List (List UInt8)} {e : DiscoveryError} :
    namesInLines capability resource lines = .error e ↔
      ∃ fault, Configuration.readLines 1 lines = .error fault ∧
        e = ⟨capability, fault.inResource resource⟩ := by
  rw [namesInLines]
  rcases Configuration.readLines 1 lines with (_ | ⟨line, fault⟩) | found <;>
    simp [Except.mapError, eq_comm]

/-- A resource gives all its bytes if and only if it can be opened and does not break off. -/
theorem Opened.read_eq_ok_iff {o : Opened} {bytes : List UInt8} :
    o.read = .ok bytes ↔ o = .ok bytes := by
  cases o <;> simp [read]

/-- Of what is read to its end the lines decide. -/
theorem namesRead_ok (capability : CapabilityId) (resource : ResourceId) (bytes : List UInt8) :
    namesRead capability resource (.ok bytes) =
      namesInLines capability resource (Text.lines bytes) := by
  simp only [namesRead, Opened.lines]
  cases namesInLines capability resource (Text.lines bytes) <;> rfl

/-- **A resource lists names exactly when its bytes are in the grammar, and its first line outside
is to blame.** The names of a resource are read if its bytes are UTF-8 and its lines list names,
and then they are these names. Otherwise the answer is the fault of the first line that is not
UTF-8 or has another form, with the number of that line. Whether the bytes are UTF-8 can be told
from the lines one by one. -/
theorem listedNames_iff_grammar (capability : CapabilityId) {r : Resource} {w : World}
    {bytes : List UInt8} (h : r.read w.files = .ok bytes) :
    let answer := ((listedNames capability r).run w).1
    (∀ names, answer = .ok names ↔
        bytes.toByteArray.IsValidUTF8 ∧ Configuration.Lists (Text.lines bytes) names) ∧
      (∀ e, answer = .error e ↔
        ∃ earlier line later fault, Text.lines bytes = earlier ++ line :: later ∧
          (∃ names, Configuration.Lists earlier names) ∧
          Configuration.Blames (earlier.length + 1) line fault ∧
          e = ⟨capability, fault.inResource r.id⟩) ∧
      (bytes.toByteArray.IsValidUTF8 ↔
        ∀ line ∈ Text.lines bytes, line.toByteArray.IsValidUTF8) := by
  intro answer
  have hanswer : answer = namesInLines capability r.id (Text.lines bytes) := by
    show namesRead capability r.id (r.opened w.files) = _
    rw [Opened.read_eq_ok_iff.mp h, namesRead_ok]
  refine ⟨fun names => ?_, fun e => ?_, Text.isValid_iff_lines bytes⟩
  · rw [hanswer, namesInLines_eq_ok_iff, Configuration.readLines_eq_ok_iff]
    exact ⟨fun hlists => ⟨(Text.isValid_iff_lines bytes).mpr hlists.isValid, hlists⟩, And.right⟩
  · rw [hanswer, namesInLines_eq_error_iff]
    simp only [Configuration.readLines_eq_error_iff, Nat.add_comm 1]
    constructor
    · rintro ⟨fault, ⟨earlier, line, later, hlines, hearlier, hblames⟩, he⟩
      exact ⟨earlier, line, later, fault, hlines, hearlier, hblames, he⟩
    · rintro ⟨earlier, line, later, fault, hlines, hearlier, hblames, he⟩
      exact ⟨fault, ⟨earlier, line, later, hlines, hearlier, hblames⟩, he⟩

/-- A resource with a name and a comment, a line of blanks, a line of two words, and a line that is
not UTF-8. -/
def mixedResource : Resource :=
  .ofBytes ⟨"1"⟩ [0x20, 0x41, 0x23, 0x0d, 0x0a, 0x0b, 0x0a, 0x42, 0x20, 0x43, 0x0a, 0xff]

/-- The third line is to blame: the two before have the right form, and the fourth is not
reached. -/
theorem listedNames_mixedResource :
    mixedResource.read ∅ =
        .ok [0x20, 0x41, 0x23, 0x0d, 0x0a, 0x0b, 0x0a, 0x42, 0x20, 0x43, 0x0a, 0xff] ∧
      ((listedNames ⟨"x.Codec"⟩ mixedResource).run (.fresh ∅ ∅)).1 =
        .error ⟨⟨"x.Codec"⟩, .malformed ⟨"1"⟩ 3 .illegalSyntax⟩ := by
  have hfirst : Line.Form [' ', 'A', '#'] (some "A") :=
    @Line.Form.named [' '] ['A'] [] ['#'] (List.forall_mem_singleton.mpr rfl) (by decide +kernel)
      (by simp) (.present [])
  have hsecond : Line.Form ['\x0b'] none :=
    @Line.Form.unnamed ['\x0b'] [] (List.forall_mem_singleton.mpr rfl) .absent
  have hthird : Line.read ['B', ' ', 'C'] = .error .illegalSyntax := by decide +kernel
  obtain ⟨hform, hfault⟩ := Line.read_eq_error_iff.mp hthird
  refine ⟨rfl, ((listedNames_iff_grammar ⟨"x.Codec"⟩ (r := mixedResource) (w := .fresh ∅ ∅)
    rfl).2.1 _).mpr ⟨[[0x20, 0x41, 0x23], [0x0b]], [0x42, 0x20, 0x43], [[0xff]], _, by decide,
      ⟨_, .cons (by decide) hfirst (.cons (by decide) hsecond .nil)⟩,
      .malformed (by decide) hform hfault, rfl⟩⟩

end ProviderDiscovery
