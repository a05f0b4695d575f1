import Mathlib.Data.List.Forall2
import ProviderDiscovery.Proofs.Configuration.Names

/-!
# The ends of lines

A line ends where the next one begins, at a line feed, and a carriage return before the line feed
is not part of it. The word of a line does not change with blanks behind it (`Line.IsWord.append`),
and a carriage return is a blank, so the reader may as well read the segments between the line
feeds (`readLines_lines`). Two laws follow. A file with a line feed and another file behind it is
read as the one file and then the other, whose lines are numbered on (`listedNames_append_cons`).
And a file is read alike whether its lines end in line feeds alone or in carriage returns and line
feeds (`listedNames_withReturns`).
-/

namespace ProviderDiscovery

/-! ### Line feeds and segments -/

namespace Text

/-- There is one segment more than there are separators. -/
theorem length_segments {α : Type} [DecidableEq α] (sep : α) (xs : List α) :
    (segments sep xs).length = xs.count sep + 1 := by
  induction xs with
  | nil => rfl
  | cons x rest ih =>
    rw [segments]
    split
    · rename_i h
      rw [h, List.length_cons, ih, List.count_cons_self]
    · rename_i h
      rw [List.count_cons_of_ne h]
      cases hrest : segments sep rest with
      | nil => exact absurd hrest (segments_ne_nil sep rest)
      | cons s more =>
        rw [hrest] at ih
        exact ih

/-- A file with a carriage return before each of its line feeds. -/
def withReturns (bytes : List UInt8) : List UInt8 :=
  bytes.flatMap fun b => if b = lineFeed then [carriageReturn, lineFeed] else [b]

/-- A segment with or without a carriage return put behind it. -/
def MayReturn (s t : List UInt8) : Prop := t = s ∨ t = s ++ [carriageReturn]

theorem mayReturn_dropReturn (line : List UInt8) : MayReturn (dropReturn line) line := by
  rw [dropReturn]
  split
  · rename_i h
    obtain ⟨front, rfl⟩ := List.getLast?_eq_some_iff.mp h
    exact .inr (by rw [List.dropLast_concat])
  · exact .inl rfl

/-- Carriage returns before the line feeds are carriage returns behind the segments. -/
theorem forall₂_mayReturn_segments (bytes : List UInt8) :
    List.Forall₂ MayReturn (segments lineFeed bytes) (segments lineFeed (withReturns bytes)) := by
  induction bytes with
  | nil => exact .cons (.inl rfl) .nil
  | cons b rest ih =>
    rw [withReturns, List.flatMap_cons, ← withReturns]
    by_cases hb : b = lineFeed
    · have hreturn : segments lineFeed ([carriageReturn, lineFeed] ++ withReturns rest) =
          [carriageReturn] :: segments lineFeed (withReturns rest) :=
        segments_append_cons lineFeed [carriageReturn] (withReturns rest)
      rw [if_pos hb, hreturn, segments, if_pos hb]
      exact .cons (.inr rfl) ih
    · rw [if_neg hb, List.singleton_append, segments, segments, if_neg hb, if_neg hb]
      revert ih
      generalize segments lineFeed rest = segs
      generalize segments lineFeed (withReturns rest) = returned
      rintro (_ | ⟨rfl | rfl, hmore⟩)
      · exact .cons (.inl rfl) .nil
      · exact .cons (.inl rfl) hmore
      · exact .cons (.inr rfl) hmore

end Text

/-! ### Blanks behind a line -/

namespace Line

/-- Blanks behind a line do not change its word. -/
theorem IsWord.append {line word back : List Char} (h : IsWord line word)
    (hback : ∀ c ∈ back, Text.isBlank c) : IsWord (line ++ back) word := by
  obtain ⟨htrimmed, front, behind, comment, rfl, hfront, hbehind, hword, hcomment⟩ := h
  refine ⟨htrimmed, ?_⟩
  cases hcomment with
  | absent =>
    exact ⟨front, behind ++ back, [], by simp, hfront,
      List.forall_mem_append.mpr ⟨hbehind, hback⟩, hword, .absent⟩
  | present text =>
    exact ⟨front, behind, '#' :: (text ++ back), by simp, hfront, hbehind, hword, .present _⟩

/-- Blanks behind a line do not change what is read. -/
theorem read_append {back : List Char} (hback : ∀ c ∈ back, Text.isBlank c) (line : List Char) :
    read (line ++ back) = read line := by
  have hword : IsWord line (content line) := content_eq_iff.mp rfl
  rw [read_of_isWord (hword.append hback), ← read_of_isWord hword]

end Line

/-! ### Lines one after the other -/

/-- The fault of a file with `k` lines before it. -/
def FileFault.below (k : Nat) : FileFault → FileFault
  | .undecodable => .undecodable
  | .malformed line fault => .malformed (line + k) fault

namespace Configuration

/-- Lines are read one after the other, and numbered on. -/
theorem readLines_append (n : Nat) (lines more : List (List UInt8)) :
    readLines n (lines ++ more) =
      (do
        let names ← readLines n lines
        let rest ← readLines (n + lines.length) more
        return names ++ rest) := by
  rcases lists_or_blames n lines with ⟨names, hlists⟩ |
    ⟨earlier, line, later, fault, rfl, hearlier, hblames⟩
  · rw [readLines_append_of_lists hlists, readLines_of_lists hlists]
    cases readLines (n + lines.length) more <;> rfl
  · rw [List.append_assoc, List.cons_append, readLines_of_blames hearlier hblames,
      readLines_of_blames hearlier hblames]
    rfl

theorem readLines_cons (n : Nat) (line : List UInt8) (more : List (List UInt8)) :
    readLines n (line :: more) =
      (do
        let names ← readLines n [line]
        let rest ← readLines (n + 1) more
        return names ++ rest) :=
  readLines_append n [line] more

/-- Lines that are read alike one by one are read alike. -/
theorem readLines_congr {lines others : List (List UInt8)}
    (h : List.Forall₂ (fun line other => ∀ n, readLines n [line] = readLines n [other])
      lines others) (n : Nat) : readLines n lines = readLines n others := by
  induction h generalizing n with
  | nil => rfl
  | cons hline hrest ih => rw [readLines_cons, hline, ih, ← readLines_cons]

/-- A carriage return behind a line does not change what is read. -/
theorem readLines_of_mayReturn {s t : List UInt8} (h : Text.MayReturn s t) (n : Nat) :
    readLines n [t] = readLines n [s] := by
  rcases h with rfl | rfl
  · rfl
  have hblank : ∀ c ∈ ['\r'], Text.isBlank c := List.forall_mem_singleton.mpr (by decide +kernel)
  have hdecode : Text.Utf8.decode (s ++ [Text.carriageReturn]) =
      (Text.Utf8.decode s).map (· ++ ['\r']) := by
    rw [Text.Utf8.decode_append_cons (by decide)]
    cases Text.Utf8.decode s <;> rfl
  simp only [readLines, hdecode]
  cases Text.Utf8.decode s with
  | none => rfl
  | some chars => simp only [Option.map_some, Line.read_append hblank]

/-- **The lines of a file are read as the segments between its line feeds are.** An empty segment
behind the last line feed is no line, but it holds no name either. -/
theorem readLines_lines (n : Nat) (bytes : List UInt8) :
    readLines n (Text.lines bytes) = readLines n (Text.segments Text.lineFeed bytes) := by
  rw [Text.lines]
  generalize Text.segments Text.lineFeed bytes = segs
  induction segs generalizing n with
  | nil => rfl
  | cons s rest ih =>
    cases rest with
    | nil =>
      rw [Text.linesOfSegments]
      split
      · rename_i hs
        rw [hs]
        rfl
      · rfl
    | cons t more =>
      rw [Text.linesOfSegments_cons (List.cons_ne_nil t more), readLines_cons, readLines_cons n s,
        readLines_of_mayReturn (Text.mayReturn_dropReturn s), ih]

/-! ### Numbering -/

/-- A line is to blame for the same, whatever its number. -/
theorem Blames.below {n : Nat} {line : List UInt8} {fault : FileFault} (h : Blames n line fault)
    (k : Nat) : Blames (n + k) line (fault.below k) := by
  cases h with
  | undecodable hbytes => exact .undecodable hbytes
  | malformed htext hform hfault => exact .malformed htext hform hfault

/-- Lines with others before them are read alike, and counted on. -/
theorem readLines_add (n k : Nat) (lines : List (List UInt8)) :
    readLines (n + k) lines = (readLines n lines).mapError (FileFault.below k) := by
  induction lines generalizing n with
  | nil => rfl
  | cons line rest ih =>
    rcases form_or_blames n line with ⟨text, name?, htext, hform⟩ | ⟨fault, hblames⟩
    · rw [readLines_cons_of_form htext hform, readLines_cons_of_form htext hform,
        Nat.add_right_comm, ih]
      cases readLines (n + 1) rest <;> rfl
    · rw [readLines_cons_of_blames hblames, readLines_cons_of_blames (hblames.below k)]
      rfl

/-! ### Files with others behind them -/

/-- The names in two files with a line feed between them. -/
theorem names_append_cons (a b : List UInt8) :
    names (a ++ Text.lineFeed :: b) =
      (do
        let first ← names a
        let second ← (names b).mapError (FileFault.below (a.count Text.lineFeed + 1))
        return first ++ second) := by
  simp only [names, readLines_lines]
  rw [Text.segments_append_cons, readLines_append, Text.length_segments, readLines_add]

/-- The names in a file with carriage returns before its line feeds. -/
theorem names_withReturns (bytes : List UInt8) : names (Text.withReturns bytes) = names bytes := by
  simp only [names, readLines_lines]
  refine (readLines_congr ?_ 1).symm
  exact (Text.forall₂_mayReturn_segments bytes).imp fun s t h n => (readLines_of_mayReturn h n).symm

end Configuration

/-- The error of a discovery that reads a file with `k` lines before it: only the number of a
malformed line changes. -/
def DiscoveryError.below (k : Nat) (e : DiscoveryError) : DiscoveryError :=
  match e.fault with
  | .malformed resource line fault => { e with fault := .malformed resource (line + k) fault }
  | _ => e

/-- **Files can be put one behind the other.** The names in a file, a line feed and another file are
those in the first and then those in the second. If the first file cannot be read, neither can the
whole, with the same error. If only the second cannot be read, the error is that of the second, with
the lines of the first counted: there is one more of them than it has line feeds, whether or not a
line feed ends it. -/
theorem listedNames_append_cons (capability : CapabilityId) (id : ResourceId) (a b : List UInt8)
    (w : World) :
    let read := fun bytes => ((listedNames capability (.ofBytes id bytes)).run w).1
    read (a ++ Text.lineFeed :: b) =
      match read a, read b with
      | .error e, _ => .error e
      | .ok names, .ok more => .ok (names ++ more)
      | .ok _, .error e => .error (e.below (a.count Text.lineFeed + 1)) := by
  intro read
  have hread : ∀ bytes, read bytes = (Configuration.names bytes).mapError fun fault =>
      ⟨capability, fault.inResource id⟩ := fun bytes => namesRead_ok capability id bytes
  simp only [hread]
  rw [Configuration.names_append_cons]
  cases Configuration.names a with
  | error fault => rfl
  | ok names =>
    rcases Configuration.names b with (_ | ⟨line, fault⟩) | more <;> rfl

/-- **How lines end does not matter.** A file in which a carriage return stands before each line
feed lists the same names as the file without them, or fails with the same error, which has the
number of the same line. Carriage returns that the file has already make no difference. -/
theorem listedNames_withReturns (capability : CapabilityId) (id : ResourceId) (bytes : List UInt8)
    (w : World) :
    ((listedNames capability (.ofBytes id (Text.withReturns bytes))).run w).1 =
      ((listedNames capability (.ofBytes id bytes)).run w).1 := by
  have hread : ∀ bytes, ((listedNames capability (.ofBytes id bytes)).run w).1 =
      (Configuration.names bytes).mapError fun fault => ⟨capability, fault.inResource id⟩ :=
    fun bytes => namesRead_ok capability id bytes
  simp only [hread, Configuration.names_withReturns]

end ProviderDiscovery
