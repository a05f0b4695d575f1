import ProviderDiscovery.Configuration.Line
import ProviderDiscovery.Proofs.Name
import ProviderDiscovery.Proofs.Text.Trim

/-!
# The grammar of a configuration line

A line has blanks, at most one qualified name with blanks behind it, and at most one comment
(`Line.Form`). The reader finds the comment first and trims what stands before it; what is left is
the word of the line. `read_eq_ok_iff` says that it accepts the grammar, and `read_eq_error_iff`
what it blames a line outside the grammar for.
-/

namespace ProviderDiscovery.Line

open Text

/-! ### The grammar -/

/-- A **comment** at the end of a line: nothing, or a number sign and anything behind it. -/
inductive IsComment : List Char → Prop where
  | absent : IsComment []
  | present (text : List Char) : IsComment ('#' :: text)

/-- The **form** of a line, and the name on it. -/
inductive Form : List Char → Option String → Prop where
  /-- Blanks, and a comment. -/
  | unnamed {front comment : List Char} (hfront : ∀ c ∈ front, isBlank c)
      (hcomment : IsComment comment) : Form (front ++ comment) none
  /-- Blanks, a name, blanks, and a comment. -/
  | named {front name back comment : List Char} (hfront : ∀ c ∈ front, isBlank c)
      (hname : isQualified name) (hback : ∀ c ∈ back, isBlank c) (hcomment : IsComment comment) :
      Form (front ++ name ++ back ++ comment) (some (String.ofList name))

/-- The **word** of a line: what stands before its first number sign, without the blanks at the
two ends. -/
structure IsWord (line word : List Char) : Prop where
  trimmed : IsTrimmed word
  split : ∃ front back comment, line = front ++ word ++ back ++ comment ∧
    (∀ c ∈ front, isBlank c) ∧ (∀ c ∈ back, isBlank c) ∧ '#' ∉ word ∧ IsComment comment

/-- What a line outside the grammar is **blamed** for: its word holds a blank, or is no qualified
name. -/
inductive Blames (line : List Char) : LineFault → Prop where
  | illegalSyntax {word : List Char} (hword : IsWord line word) (hblank : ∃ c ∈ word, isBlank c) :
      Blames line .illegalSyntax
  | illegalName {word : List Char} (hword : IsWord line word)
      (hblank : ∀ c ∈ word, isBlank c = false) : Blames line (.illegalName (String.ofList word))

/-! ### Words -/

theorem numberSign_not_mem_of_forall_isBlank {s : List Char} (h : ∀ c ∈ s, isBlank c) :
    '#' ∉ s := by
  intro hmem
  have hblank : isBlank '#' = false := by decide +kernel
  rw [h _ hmem] at hblank
  cases hblank

/-- What stands before a comment is what stands before the first number sign. -/
theorem takeWhile_append_comment {s comment : List Char} (hs : '#' ∉ s)
    (hcomment : IsComment comment) : (s ++ comment).takeWhile (· != '#') = s := by
  have hkeep : ∀ c ∈ s, (c != '#') = true := fun c hc => by
    simpa using fun h : c = '#' => hs (h ▸ hc)
  rw [List.takeWhile_append_of_pos hkeep]
  cases hcomment with
  | absent => simp
  | present text => simp

/-- Behind what stands before the first number sign there is a comment. -/
theorem isComment_dropWhile (line : List Char) : IsComment (line.dropWhile (· != '#')) := by
  cases h : line.dropWhile (· != '#') with
  | nil => exact .absent
  | cons c text =>
    have hfirst := List.head?_dropWhile_not (· != '#') line
    rw [h] at hfirst
    obtain rfl : c = '#' := by simpa using hfirst
    exact .present text

/-- The **content** of a line is its word. -/
theorem content_eq_iff {line word : List Char} : content line = word ↔ IsWord line word := by
  constructor
  · rintro rfl
    obtain ⟨front, back, hsplit, hfront, hback⟩ := exists_trim (line.takeWhile (· != '#'))
    refine ⟨isTrimmed_trim _, front, back, line.dropWhile (· != '#'), ?_, hfront, hback, ?_,
      isComment_dropWhile line⟩
    · rw [content, ← hsplit, List.takeWhile_append_dropWhile]
    · intro hmem
      have hline : '#' ∈ line.takeWhile (· != '#') := by
        rw [hsplit]
        exact List.mem_append_left _ (List.mem_append_right _ hmem)
      simpa using List.mem_takeWhile_imp hline
  · rintro ⟨htrimmed, front, back, comment, rfl, hfront, hback, hword, hcomment⟩
    have hbefore : '#' ∉ front ++ word ++ back := by
      simp only [List.mem_append, not_or]
      exact ⟨⟨numberSign_not_mem_of_forall_isBlank hfront, hword⟩,
        numberSign_not_mem_of_forall_isBlank hback⟩
    rw [content, takeWhile_append_comment hbefore hcomment,
      trim_append_append hfront htrimmed hback]

/-- A line has one word. -/
theorem IsWord.unique {line word other : List Char} (h : IsWord line word)
    (hother : IsWord line other) : word = other :=
  (content_eq_iff.mpr h).symm.trans (content_eq_iff.mpr hother)

theorem form_none_iff {line : List Char} : Form line none ↔ IsWord line [] := by
  constructor
  · rintro ⟨hfront, hcomment⟩
    exact ⟨isTrimmed_of_forall (by simp), _, [], _, by simp, hfront, by simp, by simp, hcomment⟩
  · rintro ⟨-, front, back, comment, rfl, hfront, hback, -, hcomment⟩
    rw [List.append_nil]
    exact .unnamed (List.forall_mem_append.mpr ⟨hfront, hback⟩) hcomment

theorem form_some_iff {line : List Char} {name : String} :
    Form line (some name) ↔
      ∃ word, IsWord line word ∧ isQualified word ∧ name = String.ofList word := by
  constructor
  · intro h
    cases h with
    | @named front word back comment hfront hname hback hcomment =>
      exact ⟨word, ⟨isTrimmed_of_forall fun c => isBlank_eq_false_of_isQualified hname,
        front, back, comment, rfl, hfront, hback, numberSign_not_mem_of_isQualified hname,
        hcomment⟩, hname, rfl⟩
  · rintro ⟨word, ⟨-, front, back, comment, rfl, hfront, hback, -, hcomment⟩, hname, rfl⟩
    exact .named hfront hname hback hcomment

/-! ### The reader -/

/-- The reader decides by the word of the line. -/
theorem read_of_isWord {line word : List Char} (h : IsWord line word) :
    read line =
      if word = [] then .ok none
      else if word.any isBlank then .error .illegalSyntax
      else if isQualified word then .ok (some (String.ofList word))
      else .error (.illegalName (String.ofList word)) := by
  rw [read, content_eq_iff.mpr h]

theorem read_of_form {line : List Char} {name? : Option String} (h : Form line name?) :
    read line = .ok name? := by
  cases name? with
  | none => rw [read_of_isWord (form_none_iff.mp h), if_pos rfl]
  | some name =>
    obtain ⟨word, hword, hname, rfl⟩ := form_some_iff.mp h
    have hblank : ¬word.any isBlank := by
      rw [Bool.not_eq_true, List.any_eq_false]
      intro c hc
      rw [isBlank_eq_false_of_isQualified hname hc]
      exact Bool.false_ne_true
    rw [read_of_isWord hword, if_neg (isQualified_ne_nil hname), if_neg hblank, if_pos hname]

/-- What the reader answers is a name of the line's form, or a fault that its word shows. -/
theorem read_spec (line : List Char) :
    (∃ name?, read line = .ok name? ∧ Form line name?) ∨
      ∃ fault, read line = .error fault ∧ Blames line fault := by
  have hword : IsWord line (content line) := content_eq_iff.mp rfl
  generalize content line = word at hword
  rw [read_of_isWord hword]
  by_cases hnil : word = []
  · rw [if_pos hnil]
    exact .inl ⟨none, rfl, form_none_iff.mpr (hnil ▸ hword)⟩
  rw [if_neg hnil]
  by_cases hblank : word.any isBlank
  · rw [if_pos hblank]
    obtain ⟨c, hc, hcblank⟩ := List.any_eq_true.mp hblank
    exact .inr ⟨_, rfl, .illegalSyntax hword ⟨c, hc, hcblank⟩⟩
  rw [if_neg hblank]
  by_cases hname : isQualified word
  · rw [if_pos hname]
    exact .inl ⟨_, rfl, form_some_iff.mpr ⟨word, hword, hname, rfl⟩⟩
  · rw [if_neg hname]
    refine .inr ⟨_, rfl, .illegalName hword fun c hc => ?_⟩
    simpa using List.any_eq_false.mp (Bool.eq_false_iff.mpr hblank) c hc

/-- A line is blamed for one fault. -/
theorem Blames.unique {line : List Char} {fault other : LineFault} (h : Blames line fault)
    (hother : Blames line other) : fault = other := by
  cases h with
  | illegalSyntax hword hblank =>
    cases hother with
    | illegalSyntax => rfl
    | illegalName hword' hblank' =>
      obtain ⟨c, hc, hcblank⟩ := hblank
      rw [hblank' c (hword.unique hword' ▸ hc)] at hcblank
      cases hcblank
  | illegalName hword hblank =>
    cases hother with
    | illegalSyntax hword' hblank' =>
      obtain ⟨c, hc, hcblank⟩ := hblank'
      rw [hblank c (hword'.unique hword ▸ hc)] at hcblank
      cases hcblank
    | illegalName hword' => rw [hword.unique hword']

/-- **The reader accepts the grammar**, and finds the name. -/
theorem read_eq_ok_iff {line : List Char} {name? : Option String} :
    read line = .ok name? ↔ Form line name? := by
  refine ⟨fun h => ?_, read_of_form⟩
  rcases read_spec line with ⟨name?, hread, hform⟩ | ⟨fault, hread, -⟩
  · obtain rfl := Except.ok.inj (h.symm.trans hread)
    exact hform
  · cases h.symm.trans hread

/-- **A line outside the grammar is blamed** for what its word shows. -/
theorem read_eq_error_iff {line : List Char} {fault : LineFault} :
    read line = .error fault ↔ (∀ name?, ¬Form line name?) ∧ Blames line fault := by
  rcases read_spec line with ⟨name?, hread, hform⟩ | ⟨shown, hread, hblames⟩
  · refine ⟨fun h => ?_, fun h => absurd hform (h.1 name?)⟩
    cases h.symm.trans hread
  · constructor
    · intro h
      obtain rfl := Except.error.inj (h.symm.trans hread)
      refine ⟨fun name? hform => ?_, hblames⟩
      cases hread.symm.trans (read_of_form hform)
    · rintro ⟨-, h⟩
      rw [hread, hblames.unique h]

end ProviderDiscovery.Line
