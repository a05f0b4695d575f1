import Mathlib.Control.Monad.Basic
import ProviderDiscovery.Proofs.Scope.Steady
import ProviderDiscovery.Scope.ServiceNames

/-!
# Delegation

A scope is a tree: a class path and a scope in memory put their parent before what is their own,
and a class path puts its entries in a row. `Scope.leaves` lists the parts that hold files
themselves, in that order, and `resources_eq_mapM_leaves` says that a scope that is asked for its
resources asks its leaves one after the other, up to the first that fails. So the nesting does not
count: a class path among the entries of another can be replaced by its parent and its entries.
What is listed need not be what is found: a scope in memory does not list the services of its
parent, and a class path does (`parent_above_memory`).
-/

namespace ProviderDiscovery

/-! ### Steps for the members of a list -/

/-- Steps that can fail, for the members of a list: the first answer that is a failure is the
answer of the whole. -/
theorem AlwaysAnswers.attempt_mapM {α β ε : Type} {files : FileTree} {f : α → Attempt ε β}
    {answer : α → Except ε β} (l : List α)
    (h : ∀ a ∈ l, AlwaysAnswers files (f a).run (answer a)) :
    AlwaysAnswers files (l.mapM f).run (l.mapM answer) := by
  induction l with
  | nil => exact .attempt_pure _
  | cons a rest ih =>
    have ha := h a List.mem_cons_self
    have hrest := ih fun b hb => h b (List.mem_cons_of_mem a hb)
    rw [List.mapM_cons, List.mapM_cons]
    cases hanswer : answer a with
    | error e =>
      rw [hanswer] at ha
      exact .attempt_bind_of_error ha _
    | ok b =>
      rw [hanswer] at ha
      refine .attempt_bind ha ?_
      cases hmore : rest.mapM answer with
      | error e =>
        rw [hmore] at hrest
        exact .attempt_bind_of_error hrest _
      | ok bs =>
        rw [hmore] at hrest
        exact .attempt_bind hrest (.attempt_pure _)

/-- Answers count for the members of the list only. -/
theorem mapM_congr_of_mem {α β ε : Type} {f g : α → Except ε β} {l : List α}
    (h : ∀ a ∈ l, f a = g a) : l.mapM f = l.mapM g := by
  induction l with
  | nil => rfl
  | cons a rest ih =>
    rw [List.mapM_cons, List.mapM_cons, h a List.mem_cons_self,
      ih fun b hb => h b (List.mem_cons_of_mem a hb)]

/-- Answers none of which is a failure. -/
theorem mapM_eq_ok_of_map_eq {α β ε : Type} {answer : α → Except ε β} {l : List α} {found : List β}
    (h : l.map answer = found.map .ok) : l.mapM answer = .ok found := by
  induction l generalizing found with
  | nil =>
    obtain rfl := List.map_eq_nil_iff.mp h.symm
    rfl
  | cons a rest ih =>
    cases found with
    | nil => cases h
    | cons b bs =>
      obtain ⟨ha, hrest⟩ := List.cons.inj h
      rw [List.mapM_cons, ha, ih hrest]
      rfl

/-- Answers before a failure do not count. -/
theorem mapM_append_cons_eq_error {α β ε : Type} {answer : α → Except ε β} {front : List α} {a : α}
    {e : ε} (hfront : ∀ b ∈ front, ∃ found, answer b = .ok found) (ha : answer a = .error e)
    (back : List α) : (front ++ a :: back).mapM answer = .error e := by
  induction front with
  | nil =>
    rw [List.nil_append, List.mapM_cons, ha]
    rfl
  | cons b rest ih =>
    obtain ⟨found, hb⟩ := hfront b List.mem_cons_self
    rw [List.cons_append, List.mapM_cons, hb,
      ih fun b' hb' => hfront b' (List.mem_cons_of_mem b hb')]
    rfl

/-! ### Texts in memory -/

namespace Services

/-- The texts with more of them, each with its capability, added one after the other. -/
def addAll (s : Services) (added : List (String × String)) : Services :=
  added.foldl (fun s e => s.add e.1 e.2) s

/-- Each capability has the texts that were added for it, in the order in which they were added. -/
theorem texts_addAll (s : Services) (added : List (String × String)) (c : String) :
    (s.addAll added).texts c = s.texts c ++ (added.filter (·.1 = c)).map (·.2) := by
  induction added generalizing s with
  | nil => simp [addAll]
  | cons e rest ih =>
    rw [addAll, List.foldl_cons]
    refine (ih (s.add e.1 e.2)).trans ?_
    by_cases h : e.1 = c
    · rw [h, texts_add_self]
      simp [h]
    · rw [texts_add_of_ne _ _ (Ne.symm h)]
      simp [h]

/-- The resources under the name of a capability's file are those of the capability's texts. -/
theorem resources_servicesPrefix (s : Services) (scope c : String) :
    s.resources scope (servicesPrefix ++ c) = s.resourcesFor scope c := by
  have hsame : ∀ d, servicesPrefix ++ d = servicesPrefix ++ c ↔ d = c := fun d => by
    simp [← String.toList_inj]
  rw [resources]
  simp only [hsame]
  cases hfind : s.entries.find? fun e => e.1 = c with
  | some entry =>
    obtain ⟨d, texts⟩ := entry
    have hd : d = c := by simpa using List.find?_some hfind
    rw [hd]
  | none =>
    have hnone : s.entries.lookup c = none := Keyed.lookup_eq_none_iff.mpr fun hmem => by
      obtain ⟨e, he, hc⟩ := List.mem_map.mp hmem
      exact List.find?_eq_none.mp hfind e he (by simpa using hc)
    rw [resourcesFor, texts, hnone]
    rfl

end Services

namespace Scope

/-! ### Leaves -/

mutual

/-- The **leaves** of a scope in delegation order: those of its parent, and then itself without the
parent, or those of its entries. A party answers for its parent itself, so it is a leaf as a whole.
-/
def leaves : Scope → List Scope
  | .memory name services parent => parentLeaves parent ++ [.memory name services none]
  | .directory root => [.directory root]
  | .archive path => [.archive path]
  | .classPath _ entries parent => parentLeaves parent ++ entryLeaves entries
  | .custom p services parent => [.custom p services parent]

/-- The leaves of a parent, if there is one. -/
def parentLeaves : Option Scope → List Scope
  | none => []
  | some parent => leaves parent

/-- The leaves of scopes, one after the other. -/
def entryLeaves : List Scope → List Scope
  | [] => []
  | entry :: rest => leaves entry ++ entryLeaves rest

end

theorem entryLeaves_eq_flatMap (entries : List Scope) :
    entryLeaves entries = entries.flatMap leaves := by
  induction entries with
  | nil => rw [entryLeaves, List.flatMap_nil]
  | cons entry rest ih => rw [entryLeaves, List.flatMap_cons, ih]

theorem parentLeaves_eq_flatMap (parent : Option Scope) :
    parentLeaves parent = parent.toList.flatMap leaves := by
  cases parent with
  | none => rw [parentLeaves, Option.toList_none, List.flatMap_nil]
  | some s => rw [parentLeaves, Option.toList_some, List.flatMap_singleton]

/-- The parent of a class path counts as an entry before the others. -/
theorem leaves_classPath (name : String) (entries : List Scope) (parent : Option Scope) :
    (classPath name entries parent).leaves = (parent.toList ++ entries).flatMap leaves := by
  rw [leaves, parentLeaves_eq_flatMap, entryLeaves_eq_flatMap, List.flatMap_append]

/-! ### Resources -/

/-- A scope without parts that delegate is its own leaf. -/
theorem resources_eq_mapM_singleton (name : String) (s : Scope) :
    s.resources name = (do let found ← [s].mapM (resources name); return found.flatten) := by
  simp

/-- Asking two rows of scopes, one after the other. -/
theorem mapM_resources_append (name : String) (ss more : List Scope) :
    (do let found ← (ss ++ more).mapM (resources name); return found.flatten :
      Attempt ScopeError (List Resource)) =
      (do
        let found ← (do let found ← ss.mapM (resources name); return found.flatten)
        let rest ← (do let found ← more.mapM (resources name); return found.flatten)
        return found ++ rest) := by
  simp [List.mapM_append]

mutual

/-- **A scope asks its leaves**, one after the other, and gives all that they have. -/
theorem resources_eq_mapM_leaves (name : String) : ∀ s : Scope,
    s.resources name = (do let found ← s.leaves.mapM (resources name); return found.flatten)
  | .memory scope services parent => by
    rw [resources, leaves, mapM_resources_append, ← parentResources_eq_mapM_leaves,
      ← resources_eq_mapM_singleton, resources, parentResources]
    simp
  | .directory root => by rw [leaves, ← resources_eq_mapM_singleton]
  | .archive path => by rw [leaves, ← resources_eq_mapM_singleton]
  | .classPath _ entries parent => by
    rw [resources, leaves, mapM_resources_append, ← parentResources_eq_mapM_leaves,
      ← entryResources_eq_mapM_leaves]
  | .custom p services parent => by rw [leaves, ← resources_eq_mapM_singleton]

theorem parentResources_eq_mapM_leaves (name : String) : ∀ parent : Option Scope,
    parentResources name parent =
      (do let found ← (parentLeaves parent).mapM (resources name); return found.flatten)
  | none => by simp [parentResources, parentLeaves]
  | some parent => by rw [parentResources, parentLeaves, ← resources_eq_mapM_leaves]

theorem entryResources_eq_mapM_leaves (name : String) : ∀ entries : List Scope,
    entryResources name entries =
      (do let found ← (entryLeaves entries).mapM (resources name); return found.flatten)
  | [] => by simp [entryResources, entryLeaves]
  | entry :: rest => by
    rw [entryResources, entryLeaves, mapM_resources_append, ← resources_eq_mapM_leaves,
      ← entryResources_eq_mapM_leaves]

end

/-- Scopes with the same leaves have the same resources. -/
theorem resources_eq_of_leaves_eq {s t : Scope} (h : s.leaves = t.leaves) (name : String) :
    s.resources name = t.resources name := by
  rw [resources_eq_mapM_leaves, h, ← resources_eq_mapM_leaves]

/-- Leaves that answer the same on every call decide what the scope answers. -/
theorem alwaysAnswers_resources_of_leaves {s : Scope} {files : FileTree} {name : String}
    {answer : Scope → Except ScopeError (List Resource)}
    (h : ∀ leaf ∈ s.leaves, ∀ w, w.files = files →
      ((leaf.resources name).run.run w).1 = answer leaf) :
    AlwaysAnswers files (s.resources name).run ((s.leaves.mapM answer).map List.flatten) := by
  have hleaves := AlwaysAnswers.attempt_mapM s.leaves fun leaf hleaf =>
    alwaysAnswers_resources (h leaf hleaf)
  rw [resources_eq_mapM_leaves]
  cases hanswer : s.leaves.mapM answer with
  | error cause =>
    rw [hanswer] at hleaves
    exact .attempt_bind_of_error hleaves _
  | ok found =>
    rw [hanswer] at hleaves
    exact .attempt_bind hleaves (.attempt_pure _)

/-! ### Services -/

/-- Services of scopes in a row are listed row by row. -/
theorem entryServices_append (files : FileTree) (ss more : List Scope) :
    entryServices files (ss ++ more) =
      (do
        let names ← entryServices files ss
        let rest ← entryServices files more
        return names ++ rest) := by
  induction ss with
  | nil =>
    rw [List.nil_append, entryServices]
    cases entryServices files more <;> rfl
  | cons s rest ih =>
    rw [List.cons_append, entryServices, entryServices, ih]
    simp only [bind_assoc, pure_bind, List.append_assoc]

/-- The parent of a class path counts as an entry before the others. -/
theorem serviceNames_classPath (files : FileTree) (name : String) (entries : List Scope)
    (parent : Option Scope) :
    (classPath name entries parent).serviceNames files =
      (do
        let names ← entryServices files (parent.toList ++ entries)
        return sortedNames names) := by
  cases parent with
  | none =>
    rw [serviceNames, parentServices]
    rfl
  | some s => simp [serviceNames, parentServices, entryServices]

/-- Each scope is asked, and all that they list counts, one after the other. -/
theorem entryServices_eq_mapM (files : FileTree) (ss : List Scope) :
    entryServices files ss = (ss.mapM (serviceNames files)).map List.flatten := by
  induction ss with
  | nil => rw [entryServices, List.mapM_nil]; rfl
  | cons s rest ih =>
    rw [entryServices, ih, List.mapM_cons]
    cases s.serviceNames files with
    | error cause => rfl
    | ok names => cases rest.mapM (serviceNames files) <;> rfl

theorem entryServices_singleton (files : FileTree) (s : Scope) :
    entryServices files [s] = s.serviceNames files := by
  rw [entryServices, entryServices]
  cases s.serviceNames files with
  | error cause => rfl
  | ok names => exact congrArg Except.ok (List.append_nil names)

/-- Names that ascend are settled by which names they are. -/
theorem eq_of_pairwise_of_mem_iff {names more : List String} (h : names.Pairwise (· < ·))
    (hmore : more.Pairwise (· < ·)) (hmem : ∀ n, n ∈ names ↔ n ∈ more) : names = more := by
  have hnodup : ∀ {l : List String}, l.Pairwise (· < ·) → l.Nodup := fun hl =>
    hl.imp fun hab => String.ne_of_lt hab
  refine List.Perm.eq_of_pairwise (fun a b _ _ hab hba => ?_) h hmore ?_
  · exact absurd hba (String.lt_asymm hab)
  · exact (List.perm_ext_iff_of_nodup (hnodup h) (hnodup hmore)).mpr hmem

/-- Sorting forgets the order and the repetitions of the names. -/
theorem sortedNames_eq_of_mem_iff {names more : List String} (h : ∀ n, n ∈ names ↔ n ∈ more) :
    sortedNames names = sortedNames more :=
  eq_of_pairwise_of_mem_iff (pairwise_sortedNames names) (pairwise_sortedNames more) fun n => by
    rw [mem_sortedNames, mem_sortedNames, h]

/-- What is sorted beforehand is sorted anyway. -/
theorem sortedNames_append_sortedNames_append (front names back : List String) :
    sortedNames (front ++ (sortedNames names ++ back)) = sortedNames (front ++ (names ++ back)) :=
  sortedNames_eq_of_mem_iff fun n => by simp [mem_sortedNames]

/-- A class path among the entries of another can be replaced by its parent and its entries. -/
theorem serviceNames_classPath_nested (files : FileTree) (title : String) (front : List Scope)
    (name : String) (entries : List Scope) (parent : Option Scope) (back : List Scope)
    (outermost : Option Scope) :
    let around := classPath title (front ++ classPath name entries parent :: back) outermost
    let flat := classPath title (front ++ (parent.toList ++ entries ++ back)) outermost
    around.serviceNames files = flat.serviceNames files := by
  intro around flat
  have hnested : entryServices files (classPath name entries parent :: back) =
      (do
        let names ← entryServices files (parent.toList ++ entries)
        let rest ← entryServices files back
        return sortedNames names ++ rest) := by
    rw [← List.singleton_append, entryServices_append, entryServices_singleton,
      serviceNames_classPath]
    simp
  rw [serviceNames_classPath, serviceNames_classPath, ← List.append_assoc, ← List.append_assoc,
    entryServices_append, entryServices_append files _ (_ ++ back), hnested,
    entryServices_append files _ back]
  simp [sortedNames_append_sortedNames_append]

/-! ### The order of delegation -/

/-- **Scopes delegate in order, whatever the nesting.** A scope that is asked for the resources of
a name asks its leaves one after the other, and gives what they give in that order. So when leaves
answer the same on every call, the answer is the concatenation of their answers, or else the error
of the first leaf that fails. A leaf in memory gives the texts of a capability in the order in which
they were added. And a class path among the entries of another can be replaced by its parent and its
entries: neither the resources nor the services change. -/
theorem resources_in_delegation_order (s : Scope) (name : String) :
    s.resources name = (do let found ← s.leaves.mapM (resources name); return found.flatten) ∧
    (∀ (files : FileTree) (answer : Scope → Except ScopeError (List Resource)),
      (∀ leaf ∈ s.leaves, ∀ w, w.files = files →
        ((leaf.resources name).run.run w).1 = answer leaf) →
      ∀ w, w.files = files →
        (∀ found : List (List Resource), s.leaves.map answer = found.map .ok →
          ((s.resources name).run.run w).1 = .ok found.flatten) ∧
        ∀ front leaf back cause, s.leaves = front ++ leaf :: back →
          (∀ other ∈ front, ∃ rs, answer other = .ok rs) → answer leaf = .error cause →
            ((s.resources name).run.run w).1 = .error cause) ∧
    (∀ (scope : String) (added : List (String × String)) (c : String),
      (memory scope (Services.addAll ∅ added) none).resources (servicesPrefix ++ c) =
        return ((added.filter (·.1 = c)).map (·.2)).zipIdx.map fun (text, index) =>
          .ofBytes (Services.resourceId scope c index) (Text.Utf8.encode text)) ∧
    ∀ (title : String) (front : List Scope) (nested : String) (entries : List Scope)
        (parent : Option Scope) (back : List Scope) (outermost : Option Scope),
      let around := classPath title (front ++ classPath nested entries parent :: back) outermost
      let flat := classPath title (front ++ (parent.toList ++ entries ++ back)) outermost
      around.resources name = flat.resources name ∧
        ∀ files, around.serviceNames files = flat.serviceNames files := by
  refine ⟨resources_eq_mapM_leaves name s, fun files answer hanswer w hw => ?_,
    fun scope added c => ?_, fun title front nested entries parent back outermost => ⟨?_,
      fun files => serviceNames_classPath_nested files title front nested entries parent back
        outermost⟩⟩
  · have hresources := (alwaysAnswers_resources_of_leaves hanswer w hw).1
    refine ⟨fun found hfound => ?_, fun front leaf back cause hleaves hfront hleaf => ?_⟩
    · rw [hresources, mapM_eq_ok_of_map_eq hfound]
      rfl
    · rw [hresources, hleaves, mapM_append_cons_eq_error hfront hleaf back]
      rfl
  · have htexts : (Services.addAll ∅ added).texts c = (added.filter (·.1 = c)).map (·.2) :=
      Services.texts_addAll ∅ added c
    rw [resources, parentResources, Services.resources_servicesPrefix, Services.resourcesFor,
      htexts, pure_bind, List.nil_append]
  · refine resources_eq_of_leaves_eq ?_ name
    simp [leaves_classPath]

/-- A class path that has another one, with a parent, as its first entry. -/
def nestedClassPath (more : List Scope) : Scope :=
  let sys : Scope := .memory "sys" ⟨[("x", ["A"])]⟩ none
  .classPath "app" (.classPath "lib" [.memory "one" ⟨[("x", ["B"])]⟩ none] (some sys) :: more) none

/-- A scope that fails whenever it is asked. -/
def failingScope (what : String) : Scope :=
  .party ⟨⟨0⟩, what, fun _ _ => .error (.unsupported what)⟩

/-- The parent's text comes first; of two entries that fail the first is blamed. -/
theorem resources_nestedClassPath :
    (((nestedClassPath []).resources "META-INF/services/x").run.run (.fresh ∅ ∅)).1 =
        .ok [.ofBytes ⟨"mem:sys/META-INF/services/x#0"⟩ [0x41],
          .ofBytes ⟨"mem:one/META-INF/services/x#0"⟩ [0x42]] ∧
      (((nestedClassPath [failingScope "p", failingScope "q"]).resources
        "META-INF/services/x").run.run (.fresh ∅ ∅)).1 = .error (.unsupported "p") := by
  let answer (leaf : Scope) := ((leaf.resources "META-INF/services/x").run.run (.fresh ∅ ∅)).1
  have hsteady : ∀ more, more = [] ∨ more = [failingScope "p", failingScope "q"] →
      ∀ leaf ∈ (nestedClassPath more).leaves, ∀ w : World, w.files = ∅ →
        ((leaf.resources "META-INF/services/x").run.run w).1 = answer leaf := by
    rintro more (rfl | rfl) leaf hleaf w -
    all_goals
      simp only [nestedClassPath, failingScope, leaves, parentLeaves, entryLeaves, List.nil_append,
        List.append_nil, List.cons_append, List.mem_cons, List.not_mem_nil, or_false] at hleaf
    · rcases hleaf with rfl | rfl <;> rfl
    · rcases hleaf with rfl | rfl | rfl | rfl <;> rfl
  have hin := fun s => (resources_in_delegation_order s "META-INF/services/x").2.1 ∅ answer
  refine ⟨(hin _ (hsteady _ (.inl rfl)) (.fresh ∅ ∅) rfl).1 [[_], [_]] rfl,
    (hin _ (hsteady _ (.inr rfl)) (.fresh ∅ ∅) rfl).2 [_, _] _ [_] _ rfl
      (fun other hother => ?_) rfl⟩
  simp only [List.mem_cons, List.not_mem_nil, or_false] at hother
  rcases hother with rfl | rfl
  · exact ⟨_, rfl⟩
  · exact ⟨_, rfl⟩

/-! ### A parent above texts in memory -/

/-- A class path with one entry lists the services of its parent and of the entry. -/
theorem serviceNames_classPath_memory (files : FileTree) (title name : String)
    (services : Services) (p : Scope) :
    (classPath title [memory name services none] (some p)).serviceNames files =
      (do
        let names ← p.serviceNames files
        return sortedNames (names ++ services.capabilities)) := by
  have hown : (memory name services none).serviceNames files = .ok services.capabilities := by
    rw [serviceNames]
  rw [serviceNames_classPath, Option.toList_some, entryServices_append, entryServices_singleton,
    entryServices_singleton, hown]
  cases p.serviceNames files <;> rfl

/-- **A parent above texts in memory.** There are two ways to put it there: a scope in memory with
a parent, and a class path with that parent whose only entry are the texts. Both have the same
resources under every name, in the same order, and fail with the same error. But only the class path
lists what the parent lists, and fails when the parent cannot list its services; the scope in memory
lists its own services alone. So the two list the same services if and only if the parent lists
none besides those. -/
theorem parent_above_memory (name title : String) (services : Services) (p : Scope) :
    let above := memory name services (some p)
    let beside := classPath title [memory name services none] (some p)
    (∀ n, above.resources n = beside.resources n) ∧
      ∀ files,
        above.serviceNames files = .ok services.capabilities ∧
        (∀ cause, p.serviceNames files = .error cause →
          beside.serviceNames files = .error cause) ∧
        (∀ names, p.serviceNames files = .ok names →
          ∃ listed, beside.serviceNames files = .ok listed ∧
            ∀ n, n ∈ listed ↔ n ∈ names ∨ n ∈ services.capabilities) ∧
        ((∃ listed, beside.serviceNames files = .ok listed ∧
            ∀ n, n ∈ listed ↔ n ∈ services.capabilities) ↔
          ∃ names, p.serviceNames files = .ok names ∧ names ⊆ services.capabilities) := by
  intro above beside
  have hleaves : above.leaves = beside.leaves := by
    simp [above, beside, leaves, parentLeaves, entryLeaves]
  refine ⟨resources_eq_of_leaves_eq hleaves, fun files => ?_⟩
  have hbeside := serviceNames_classPath_memory files title name services p
  have hmem : ∀ names n, n ∈ sortedNames (names ++ services.capabilities) ↔
      n ∈ names ∨ n ∈ services.capabilities := fun names n => by
    rw [mem_sortedNames, List.mem_append]
  refine ⟨by rw [serviceNames], fun cause hcause => ?_, fun names hnames => ?_, ?_, ?_⟩
  · rw [hbeside, hcause]
    rfl
  · exact ⟨_, by rw [hbeside, hnames]; rfl, hmem names⟩
  · rintro ⟨listed, hlisted, hsame⟩
    cases hnames : p.serviceNames files with
    | error cause =>
      rw [hbeside, hnames] at hlisted
      cases hlisted
    | ok names =>
      rw [hbeside, hnames] at hlisted
      obtain rfl := Except.ok.inj hlisted
      exact ⟨names, rfl, fun n hn => (hsame n).mp ((hmem names n).mpr (.inl hn))⟩
  · rintro ⟨names, hnames, hsub⟩
    refine ⟨_, by rw [hbeside, hnames]; rfl, fun n => (hmem names n).trans ?_⟩
    exact or_iff_right_of_imp (@hsub n)

/-- A service that only the parent has is located through either scope, and listed by the class path
alone. -/
theorem serviceNames_parent_above_empty :
    let sys : Scope := .memory "sys" ⟨[("a.C", ["p.P"])]⟩ none
    let above : Scope := .memory "m" ∅ (some sys)
    let beside : Scope := .classPath "cp" [.memory "m" ∅ none] (some sys)
    ((above.resources "META-INF/services/a.C").run.run (.fresh ∅ ∅)).1 =
        .ok [.ofBytes ⟨"mem:sys/META-INF/services/a.C#0"⟩ (Text.Utf8.encode "p.P")] ∧
      ((beside.resources "META-INF/services/a.C").run.run (.fresh ∅ ∅)).1 =
        .ok [.ofBytes ⟨"mem:sys/META-INF/services/a.C#0"⟩ (Text.Utf8.encode "p.P")] ∧
      above.serviceNames ∅ = .ok [] ∧ beside.serviceNames ∅ = .ok ["a.C"] :=
  ⟨rfl, rfl, rfl, rfl⟩

end Scope

end ProviderDiscovery
