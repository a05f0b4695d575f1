import ProviderDiscovery.Proofs.Report.Providers
import ProviderDiscovery.Proofs.Scope.Delegation

/-!
# Repeated parts of a class path

The parts of a class path are its parent and its entries. A part that comes a second time is asked a
second time, so its resources are located twice. But a list gathers first mentions, and there are
none in what has been located before: the second time, all names of the part have been found. So a
list shows the same rows with the repetition as without it. Nor does a failure move: if the part
cannot be asked, or has a resource that cannot be read, this comes up the first time.
-/

namespace ProviderDiscovery

/-! ### Answers for the members of a list -/

/-- Each member of a list has its answer among those of the list. -/
theorem exists_answer_of_mapM_eq_ok {α β ε : Type} {answer : α → Except ε β} {l : List α}
    {found : List β} (h : l.mapM answer = .ok found) {a : α} (ha : a ∈ l) :
    ∃ b ∈ found, answer a = .ok b := by
  induction l generalizing found with
  | nil => cases ha
  | cons first rest ih =>
    rw [List.mapM_cons] at h
    cases hfirst : answer first with
    | error e =>
      rw [hfirst] at h
      cases h
    | ok b =>
      cases hrest : rest.mapM answer with
      | error e =>
        rw [hfirst, hrest] at h
        cases h
      | ok more =>
        rw [hfirst, hrest] at h
        obtain rfl := Except.ok.inj h
        rcases List.mem_cons.mp ha with rfl | ha
        · exact ⟨b, List.mem_cons_self, hfirst⟩
        · obtain ⟨b', hb', hanswer⟩ := ih hrest ha
          exact ⟨b', List.mem_cons_of_mem b hb', hanswer⟩

/-- A member that comes a second time brings its answer a second time, and fails only if the list
fails without it, with the same failure. -/
theorem mapM_repeated {α β ε : Type} (answer : α → Except ε β) {front : List α} {a : α}
    (ha : a ∈ front) (back : List α) :
    (∃ e, (front ++ a :: back).mapM answer = .error e ∧
      (front ++ back).mapM answer = .error e) ∨
    ∃ found b more, b ∈ found ∧ (front ++ a :: back).mapM answer = .ok (found ++ b :: more) ∧
      (front ++ back).mapM answer = .ok (found ++ more) := by
  rw [List.mapM_append, List.mapM_append, List.mapM_cons]
  cases hfront : front.mapM answer with
  | error e => exact .inl ⟨e, rfl, rfl⟩
  | ok found =>
    obtain ⟨b, hb, hanswer⟩ := exists_answer_of_mapM_eq_ok hfront ha
    rw [hanswer]
    cases back.mapM answer with
    | error e => exact .inl ⟨e, rfl, rfl⟩
    | ok more => exact .inr ⟨found, b, more, hb, rfl, rfl⟩

namespace Scope

/-! ### The parts of a class path -/

theorem entryResources_eq_mapM (name : String) (entries : List Scope) :
    entryResources name entries =
      (do let found ← entries.mapM (resources name); return found.flatten) := by
  induction entries with
  | nil => simp [entryResources]
  | cons entry rest ih => simp [entryResources, ih]

theorem parentResources_eq_mapM (name : String) (parent : Option Scope) :
    parentResources name parent =
      (do let found ← parent.toList.mapM (resources name); return found.flatten) := by
  cases parent <;> simp [parentResources]

/-- A class path asks its parts one after the other, the parent first. -/
theorem resources_classPath (name title : String) (entries : List Scope) (parent : Option Scope) :
    (classPath title entries parent).resources name =
      (do let found ← (parent.toList ++ entries).mapM (resources name); return found.flatten) := by
  rw [resources, mapM_resources_append, parentResources_eq_mapM, entryResources_eq_mapM]

/-- Parts that answer the same on every call decide what a class path locates. -/
theorem alwaysAnswers_locate_classPath {files : FileTree} {entries : List Scope}
    {parent : Option Scope} {c : CapabilityId} (hc : isQualifiedName c.text = true)
    {answer : Scope → Except ScopeError (List Resource)}
    (h : ∀ part ∈ parent.toList ++ entries, ∀ w, w.files = files →
      ((part.resources c.resourceName).run.run w).1 = answer part) (title : String) :
    AlwaysAnswers files ((classPath title entries parent).locate c).run
      (((parent.toList ++ entries).mapM answer).map List.flatten) := by
  have hparts := AlwaysAnswers.attempt_mapM (parent.toList ++ entries) fun part hpart =>
    alwaysAnswers_resources (h part hpart)
  refine alwaysAnswers_locate hc ?_
  rw [resources_classPath]
  cases hanswer : (parent.toList ++ entries).mapM answer with
  | error cause =>
    rw [hanswer] at hparts
    exact .attempt_bind_of_error hparts _
  | ok found =>
    rw [hanswer] at hparts
    exact .attempt_bind hparts (.attempt_pure _)

end Scope

namespace Report

/-! ### The list -/

/-- Resources that were located before show nothing new in a list. -/
theorem gathered_mentions_repeated (capability : CapabilityId) (files : FileTree)
    {found : List (List Resource)} {rs : List Resource} (h : rs ∈ found)
    (more : List (List Resource)) :
    gathered (firstMentions (fun _ => false)
        (mentions capability files (found ++ rs :: more).flatten)) =
      gathered (firstMentions (fun _ => false)
        (mentions capability files (found ++ more).flatten)) := by
  have hrs : rs ⊆ found.flatten := fun r hr => List.mem_flatten.mpr ⟨rs, h, hr⟩
  rw [List.flatten_append, List.flatten_cons, mentions_append, mentions_append,
    gathered_firstMentions_repeated (mentions_subset_mentions hrs), ← mentions_append,
    ← List.flatten_append]

/-- **A part that is repeated changes nothing.** Let the parts of a class path, its parent if it has
one and its entries, answer the same on every call, and put one of them once more somewhere behind
it. Then a list of the providers of any capability is the same as before: it has the same rows,
which agree in position, name and resource, or it fails with the same error. -/
theorem providers_repeated_part {files : FileTree} (front back : List Scope)
    (parent : Option Scope)
    (hsteady : ∀ part ∈ parent.toList ++ (front ++ back), part.IsSteady files) {part : Scope}
    (hpart : part ∈ parent.toList ++ front) (title : String) (capability : CapabilityId)
    {v w : World} (hv : v.files = files) (hw : w.files = files) :
    let repeated := Scope.classPath title (front ++ part :: back) parent
    let plain := Scope.classPath title (front ++ back) parent
    (((providers repeated capability).run v).1.map positions) =
      (((providers plain capability).run w).1.map positions) := by
  intro repeated plain
  suffices hsame : ∃ answer, AlwaysAnswers files (providers repeated capability) answer ∧
      AlwaysAnswers files (providers plain capability) answer by
    obtain ⟨answer, hrepeated, hplain⟩ := hsame
    rw [(hrepeated v hv).1, (hplain w hw).1]
  cases hc : isQualifiedName capability.text with
  | false =>
    -- No part is asked for a name that cannot be one.
    have hfails : ∀ s : Scope, AlwaysAnswers files (s.locate capability).run
        (.error (.invalidIdentifier capability.text)) := by
      intro s
      rw [Scope.locate_of_not_isQualifiedName hc]
      exact .pure _
    exact ⟨_, alwaysAnswers_providers_of_error (hfails repeated),
      alwaysAnswers_providers_of_error (hfails plain)⟩
  | true =>
    let answer (s : Scope) := ((s.resources capability.resourceName).run.run (.fresh files ∅)).1
    have hanswer : ∀ s ∈ parent.toList ++ (front ++ back), ∀ u : World, u.files = files →
        ((s.resources capability.resourceName).run.run u).1 = answer s := by
      intro s hs u hu
      obtain ⟨a, ha⟩ := hsteady s hs capability.resourceName
      exact (ha u hu).trans (ha (.fresh files ∅) rfl).symm
    have hmem : ∀ s ∈ parent.toList ++ (front ++ part :: back),
        s ∈ parent.toList ++ (front ++ back) := by
      intro s hs
      simp only [List.mem_append, List.mem_cons] at hs hpart ⊢
      rcases hs with hs | hs | rfl | hs
      · exact .inl hs
      · exact .inr (.inl hs)
      · exact hpart.imp_right .inl
      · exact .inr (.inr hs)
    have hrepeated := Scope.alwaysAnswers_locate_classPath hc
      (fun s hs => hanswer s (hmem s hs)) title
    have hplain := Scope.alwaysAnswers_locate_classPath hc hanswer title
    rw [← List.append_assoc] at hrepeated hplain
    rcases mapM_repeated answer hpart back with ⟨cause, hcause, hcause'⟩ |
      ⟨found, rs, more, hrs, hfound, hfound'⟩
    · rw [hcause] at hrepeated
      rw [hcause'] at hplain
      exact ⟨_, alwaysAnswers_providers_of_error hrepeated, alwaysAnswers_providers_of_error hplain⟩
    · rw [hfound] at hrepeated
      rw [hfound'] at hplain
      refine ⟨_, alwaysAnswers_providers hrepeated, ?_⟩
      rw [gathered_mentions_repeated capability files hrs]
      exact alwaysAnswers_providers hplain

/-- A class path whose parent comes once more, between its two entries. -/
theorem providers_parent_among_entries :
    let sys : Scope := .memory "sys" ⟨[("x", ["A"])]⟩ none
    let one : Scope := .memory "one" ⟨[("x", ["B\nA"])]⟩ none
    let two : Scope := .memory "two" ⟨[("x", ["C"])]⟩ none
    let listed (entries : List Scope) :=
      ((providers (.classPath "app" entries (some sys)) ⟨"x"⟩).run (.fresh ∅ ∅)).1.map positions
    (∀ part ∈ [sys, one, two], part.IsSteady ∅) ∧ listed [one, sys, two] = listed [one, two] ∧
      listed [one, two] = .ok [(1, ⟨"A", ⟨"mem:sys/META-INF/services/x#0"⟩⟩),
        (2, ⟨"B", ⟨"mem:one/META-INF/services/x#0"⟩⟩),
        (3, ⟨"C", ⟨"mem:two/META-INF/services/x#0"⟩⟩)] := by
  intro sys one two listed
  have hsteady : ∀ part ∈ [sys, one, two], part.IsSteady ∅ := by
    intro part hpart name
    simp only [List.mem_cons, List.not_mem_nil, or_false] at hpart
    rcases hpart with rfl | rfl | rfl
    all_goals exact ⟨_, fun _ _ => rfl⟩
  refine ⟨hsteady, ?_, rfl⟩
  exact providers_repeated_part [one] [two] (some sys) hsteady List.mem_cons_self "app" ⟨"x"⟩ rfl
    rfl

end Report

end ProviderDiscovery
