import ProviderDiscovery.Candidates
import ProviderDiscovery.Proofs.Events

/-!
# Mentions of names

A walk over resources comes across failures and names: a resource that fails counts as its one
failure, and any other resource as the names that it lists, in order. `mentions` is that walk, and
`firstMentions` is what is left of it when skipped names and repetitions are dropped. The laws
below say that nothing else is dropped: failures stay, no name is left twice, and each name that is
not skipped is left where it was mentioned first.
-/

namespace ProviderDiscovery

/-- Something that a walk over resources comes across: a resource that fails, or a name. -/
abbrev Mention := Except DiscoveryError Candidate

namespace Mention

/-- The name that is mentioned. -/
def name? : Mention → Option String
  | .error _ => none
  | .ok candidate => some candidate.name

/-- The failure that is mentioned. -/
def failure? : Mention → Option DiscoveryError
  | .error e => some e
  | .ok _ => none

/-- The answer to a request for a candidate when a mention comes next, if there is one. -/
def answer : Option Mention → Except DiscoveryError (Option Candidate)
  | none => .ok none
  | some (.error e) => .error e
  | some (.ok candidate) => .ok (some candidate)

@[simp] theorem name?_error (e : DiscoveryError) : name? (.error e) = none := rfl

@[simp] theorem name?_ok (candidate : Candidate) : name? (.ok candidate) = some candidate.name :=
  rfl

@[simp] theorem failure?_error (e : DiscoveryError) : failure? (.error e) = some e := rfl

@[simp] theorem failure?_ok (candidate : Candidate) : failure? (.ok candidate) = none := rfl

end Mention

/-- The names that a resource lists when the files are such. -/
def Resource.namesIn (r : Resource) (capability : CapabilityId) (files : FileTree) :
    Except DiscoveryError (List String) :=
  namesRead capability r.id (r.opened files)

theorem run_listedNames (capability : CapabilityId) (r : Resource) (w : World) :
    (listedNames capability r).run w =
      (r.namesIn capability w.files, w.after [.opened r]) :=
  rfl

/-- The mentions in one resource. -/
def Resource.mentions (capability : CapabilityId) (files : FileTree) (r : Resource) :
    List Mention :=
  match r.namesIn capability files with
  | .error e => [.error e]
  | .ok names => names.map fun name => .ok ⟨name, r.id⟩

/-- The **mentions** in resources, one resource after the other. -/
def mentions (capability : CapabilityId) (files : FileTree) (rs : List Resource) : List Mention :=
  rs.flatMap (Resource.mentions capability files)

theorem mentions_cons_of_error {capability : CapabilityId} {files : FileTree} {r : Resource}
    {e : DiscoveryError} (h : r.namesIn capability files = .error e) (rs : List Resource) :
    mentions capability files (r :: rs) = .error e :: mentions capability files rs := by
  simp [mentions, Resource.mentions, h]

theorem mentions_cons_of_ok {capability : CapabilityId} {files : FileTree} {r : Resource}
    {names : List String} (h : r.namesIn capability files = .ok names) (rs : List Resource) :
    mentions capability files (r :: rs) =
      (names.map fun name => .ok ⟨name, r.id⟩) ++ mentions capability files rs := by
  simp [mentions, Resource.mentions, h]

theorem mentions_append (capability : CapabilityId) (files : FileTree) (rs more : List Resource) :
    mentions capability files (rs ++ more) =
      mentions capability files rs ++ mentions capability files more :=
  List.flatMap_append

/-- Resources that occur elsewhere mention nothing new. -/
theorem mentions_subset_mentions {capability : CapabilityId} {files : FileTree}
    {rs more : List Resource} (h : rs ⊆ more) :
    mentions capability files rs ⊆ mentions capability files more := by
  intro m hm
  obtain ⟨r, hr, hmr⟩ := List.mem_flatMap.mp hm
  exact List.mem_flatMap.mpr ⟨r, h hr, hmr⟩

/-- A mentioned name is mentioned by its resource. -/
theorem exists_mem_of_mem_mentions {capability : CapabilityId} {files : FileTree}
    {rs : List Resource} {candidate : Candidate}
    (h : .ok candidate ∈ mentions capability files rs) :
    ∃ r ∈ rs, r.id = candidate.resource := by
  obtain ⟨r, hr, hmem⟩ := List.mem_flatMap.mp h
  refine ⟨r, hr, ?_⟩
  rw [Resource.mentions] at hmem
  split at hmem
  · simp at hmem
  · obtain ⟨name, -, hname⟩ := List.mem_map.mp hmem
    rw [← Except.ok.inj hname]

/-- The names that a well-formed resource lists are mentioned. -/
theorem mem_filterMap_name?_mentions {capability : CapabilityId} {files : FileTree}
    {rs : List Resource} {r : Resource} {names : List String} {name : String} (hr : r ∈ rs)
    (hnames : r.namesIn capability files = .ok names) (hname : name ∈ names) :
    name ∈ (mentions capability files rs).filterMap Mention.name? := by
  refine List.mem_filterMap.mpr ⟨.ok ⟨name, r.id⟩, List.mem_flatMap.mpr ⟨r, hr, ?_⟩, rfl⟩
  rw [Resource.mentions, hnames]
  exact List.mem_map.mpr ⟨name, hname, rfl⟩

/-- The failure of a resource is mentioned. -/
theorem error_mem_mentions {capability : CapabilityId} {files : FileTree} {rs : List Resource}
    {r : Resource} {e : DiscoveryError} (hr : r ∈ rs)
    (he : r.namesIn capability files = .error e) : .error e ∈ mentions capability files rs := by
  refine List.mem_flatMap.mpr ⟨r, hr, ?_⟩
  rw [Resource.mentions, he]
  exact List.mem_singleton_self _

/-- Resources that come behind are mentioned behind. -/
theorem mentions_prefix_mentions (capability : CapabilityId) (files : FileTree)
    {rs rs' : List Resource} (h : rs <+: rs') :
    mentions capability files rs <+: mentions capability files rs' := by
  obtain ⟨more, rfl⟩ := h
  rw [mentions_append]
  exact List.prefix_append ..

/-- The **first mentions**: all failures, and each name that is not skipped where it comes
first. -/
def firstMentions (skip : String → Bool) : List Mention → List Mention
  | [] => []
  | .error e :: rest => .error e :: firstMentions skip rest
  | .ok candidate :: rest =>
    if skip candidate.name then firstMentions skip rest
    else .ok candidate :: firstMentions (fun name => skip name || name == candidate.name) rest

/-! ### What is left of the mentions -/

/-- The order of the mentions stays. -/
theorem firstMentions_sublist (skip : String → Bool) (l : List Mention) :
    (firstMentions skip l).Sublist l := by
  induction l generalizing skip with
  | nil => exact .refl _
  | cons m rest ih =>
    cases m with
    | error e => exact (ih skip).cons_cons _
    | ok candidate =>
      rw [firstMentions]
      split
      · exact (ih skip).cons _
      · exact (ih _).cons_cons _

/-- No failure is dropped. -/
theorem filterMap_failure?_firstMentions (skip : String → Bool) (l : List Mention) :
    (firstMentions skip l).filterMap Mention.failure? = l.filterMap Mention.failure? := by
  induction l generalizing skip with
  | nil => rfl
  | cons m rest ih =>
    cases m with
    | error e => simp [firstMentions, ih]
    | ok candidate =>
      rw [firstMentions]
      split <;> simp [List.filterMap_cons, ih]

/-- A failure that is mentioned is among the first mentions. -/
theorem error_mem_firstMentions {l : List Mention} {e : DiscoveryError} (h : .error e ∈ l)
    (skip : String → Bool) : .error e ∈ firstMentions skip l := by
  have hfailure : e ∈ l.filterMap Mention.failure? := List.mem_filterMap.mpr ⟨.error e, h, rfl⟩
  rw [← filterMap_failure?_firstMentions skip] at hfailure
  obtain ⟨m, hm, hme⟩ := List.mem_filterMap.mp hfailure
  cases m with
  | error e' => exact Option.some.inj hme ▸ hm
  | ok candidate => cases hme

/-- A skipped name is dropped wherever it is mentioned. -/
theorem skip_eq_false_of_mem_firstMentions {skip : String → Bool} {l : List Mention}
    {candidate : Candidate} (h : .ok candidate ∈ firstMentions skip l) :
    skip candidate.name = false := by
  induction l generalizing skip with
  | nil => simp [firstMentions] at h
  | cons m rest ih =>
    cases m with
    | error e =>
      rw [firstMentions, List.mem_cons] at h
      rcases h with h | h
      · cases h
      · exact ih h
    | ok first =>
      rw [firstMentions] at h
      split at h
      · exact ih h
      · rename_i hfirst
        rcases List.mem_cons.mp h with h | h
        · cases h
          simpa using hfirst
        · exact (Bool.or_eq_false_iff.mp (ih h)).1

/-- Of mentions that come behind others, those are left whose names the others do not mention. -/
theorem firstMentions_append (skip : String → Bool) (l l' : List Mention) :
    firstMentions skip (l ++ l') = firstMentions skip l ++
      firstMentions (fun name => skip name || (l.filterMap Mention.name?).contains name) l' := by
  induction l generalizing skip with
  | nil =>
    have hskip : (fun name => skip name || ([] : List String).contains name) = skip := by
      funext name
      exact Bool.or_false _
    rw [List.filterMap_nil, hskip]
    rfl
  | cons m rest ih =>
    cases m with
    | error e => exact congrArg (_ :: ·) (ih skip)
    | ok candidate =>
      rw [List.cons_append, List.filterMap_cons_some (Mention.name?_ok candidate), firstMentions,
        firstMentions]
      by_cases hname : skip candidate.name
      · have hskip : (fun name => skip name || (rest.filterMap Mention.name?).contains name) =
            fun name => skip name ||
              (candidate.name :: rest.filterMap Mention.name?).contains name := by
          funext name
          by_cases hsame : name = candidate.name
          · simp [hsame, hname]
          · simp [hsame]
        rw [if_pos hname, if_pos hname, ih, hskip]
      · have hskip : (fun name => (skip name || name == candidate.name) ||
              (rest.filterMap Mention.name?).contains name) =
            fun name => skip name ||
              (candidate.name :: rest.filterMap Mention.name?).contains name := by
          funext name
          rw [List.contains_cons, Bool.or_assoc]
        rw [if_neg hname, if_neg hname, ih, hskip, List.cons_append]

/-- What comes behind makes no difference to what is left before it. -/
theorem firstMentions_prefix_firstMentions (skip : String → Bool) {l l' : List Mention}
    (h : l <+: l') : firstMentions skip l <+: firstMentions skip l' := by
  obtain ⟨more, rfl⟩ := h
  rw [firstMentions_append]
  exact List.prefix_append ..

/-- Nothing is left if and only if there are only names that are skipped. -/
theorem firstMentions_eq_nil_iff {skip : String → Bool} {l : List Mention} :
    firstMentions skip l = [] ↔ ∀ m ∈ l, ∃ candidate, m = .ok candidate ∧ skip candidate.name := by
  induction l with
  | nil => exact iff_of_true rfl nofun
  | cons m rest ih =>
    rw [List.forall_mem_cons, ← ih]
    cases m with
    | error e => simp [firstMentions]
    | ok candidate =>
      rw [firstMentions]
      by_cases hname : skip candidate.name
      · simp [hname]
      · simp [hname]

/-- Behind mentions of which nothing is left the same mentions are left as without them. -/
theorem firstMentions_append_of_eq_nil {skip : String → Bool} {l : List Mention}
    (h : firstMentions skip l = []) (l' : List Mention) :
    firstMentions skip (l ++ l') = firstMentions skip l' := by
  have hskip : (fun name => skip name || (l.filterMap Mention.name?).contains name) = skip := by
    funext name
    cases hname : (l.filterMap Mention.name?).contains name with
    | false => rw [Bool.or_false]
    | true =>
      obtain ⟨m, hm, hmname⟩ := List.mem_filterMap.mp (List.contains_iff_mem.mp hname)
      obtain ⟨candidate, rfl, hcandidate⟩ := firstMentions_eq_nil_iff.mp h m hm
      obtain rfl : candidate.name = name := Option.some.inj hmname
      rw [hcandidate, Bool.or_true]
  rw [firstMentions_append, h, hskip, List.nil_append]

/-- No name is left twice. -/
theorem nodup_filterMap_name?_firstMentions (skip : String → Bool) (l : List Mention) :
    ((firstMentions skip l).filterMap Mention.name?).Nodup := by
  induction l generalizing skip with
  | nil => exact .nil
  | cons m rest ih =>
    cases m with
    | error e => simpa [firstMentions, List.filterMap_cons] using ih skip
    | ok candidate =>
      rw [firstMentions]
      split
      · exact ih skip
      · rw [List.filterMap_cons_some (Mention.name?_ok candidate)]
        refine List.nodup_cons.mpr ⟨fun hmem => ?_, ih _⟩
        obtain ⟨m, hm, hname⟩ := List.mem_filterMap.mp hmem
        cases m with
        | error e => cases hname
        | ok later =>
          have hlater := skip_eq_false_of_mem_firstMentions hm
          simp [Option.some.inj hname] at hlater

/-- A name that is not skipped is left where it was mentioned first. -/
theorem find?_firstMentions {skip : String → Bool} {name : String} (h : skip name = false)
    (l : List Mention) :
    (firstMentions skip l).find? (fun m => m.name? = some name) =
      l.find? (fun m => m.name? = some name) := by
  induction l generalizing skip with
  | nil => rfl
  | cons m rest ih =>
    cases m with
    | error e => simpa [firstMentions] using ih h
    | ok candidate =>
      rw [firstMentions]
      by_cases hname : candidate.name = name
      · simp [hname, h]
      · split
        · simpa [hname] using ih h
        · have hskip : (skip name || name == candidate.name) = false := by
            simp [h, Ne.symm hname]
          simpa [hname] using ih hskip

/-- A name that is not skipped is left if it is mentioned at all. -/
theorem mem_filterMap_name?_firstMentions {skip : String → Bool} {name : String}
    (h : skip name = false) {l : List Mention} (hl : name ∈ l.filterMap Mention.name?) :
    name ∈ (firstMentions skip l).filterMap Mention.name? := by
  obtain ⟨m, hm, hname⟩ := List.mem_filterMap.mp hl
  have hsome : (l.find? fun m => m.name? = some name).isSome :=
    List.find?_isSome.mpr ⟨m, hm, by simpa using hname⟩
  rw [← find?_firstMentions h] at hsome
  obtain ⟨first, hfirst, hname⟩ := List.find?_isSome.mp hsome
  exact List.mem_filterMap.mpr ⟨first, hfirst, by simpa using hname⟩

/-- Nothing is dropped if no name is mentioned twice or skipped. -/
theorem firstMentions_eq_self {skip : String → Bool} {l : List Mention}
    (hn : (l.filterMap Mention.name?).Nodup)
    (hskip : ∀ name ∈ l.filterMap Mention.name?, skip name = false) : firstMentions skip l = l := by
  induction l generalizing skip with
  | nil => rfl
  | cons m rest ih =>
    cases m with
    | error e => rw [firstMentions, ih hn hskip]
    | ok candidate =>
      rw [List.filterMap_cons_some (Mention.name?_ok candidate)] at hn hskip
      obtain ⟨hnew, hrest⟩ := List.nodup_cons.mp hn
      have hfirst : skip candidate.name = false := hskip _ List.mem_cons_self
      rw [firstMentions, hfirst, if_neg Bool.false_ne_true, ih hrest fun name hname => ?_]
      have hne : name ≠ candidate.name := by
        rintro rfl
        exact hnew hname
      simp [hskip name (List.mem_cons_of_mem _ hname), hne]

/-- No name is dropped if and only if none is mentioned twice. -/
theorem length_filterMap_name?_firstMentions_eq_iff {l : List Mention} :
    ((firstMentions (fun _ => false) l).filterMap Mention.name?).length =
      (l.filterMap Mention.name?).length ↔ (l.filterMap Mention.name?).Nodup := by
  constructor
  · intro h
    have hsub := (firstMentions_sublist (fun _ => false) l).filterMap Mention.name?
    rw [← hsub.eq_of_length h]
    exact nodup_filterMap_name?_firstMentions _ l
  · intro h
    rw [firstMentions_eq_self h fun _ _ => rfl]

/-! ### Up to the first failure -/

/-- The first failure, if there is one. -/
def firstFailure? (l : List Mention) : Option DiscoveryError := l.findSome? Mention.failure?

/-- The candidates before the first failure. -/
def beforeFailure : List Mention → List Candidate
  | [] => []
  | .error _ :: _ => []
  | .ok candidate :: rest => candidate :: beforeFailure rest

/-- All candidates, unless there is a failure: then the first one. -/
def gathered (l : List Mention) : Except DiscoveryError (List Candidate) :=
  match firstFailure? l with
  | some e => .error e
  | none => .ok (beforeFailure l)

@[simp] theorem firstFailure?_cons_error (e : DiscoveryError) (l : List Mention) :
    firstFailure? (.error e :: l) = some e := rfl

/-- Without a failure there are only candidates. -/
theorem map_ok_beforeFailure {l : List Mention} (h : firstFailure? l = none) :
    (beforeFailure l).map .ok = l := by
  induction l with
  | nil => rfl
  | cons m rest ih =>
    cases m with
    | error e => cases h
    | ok candidate =>
      rw [beforeFailure, List.map_cons, ih h]

/-- Without a failure every mention is a candidate. -/
theorem exists_eq_ok_of_firstFailure?_eq_none {l : List Mention} (h : firstFailure? l = none)
    {m : Mention} (hm : m ∈ l) : ∃ candidate, m = .ok candidate := by
  rw [← map_ok_beforeFailure h] at hm
  obtain ⟨candidate, -, rfl⟩ := List.mem_map.mp hm
  exact ⟨candidate, rfl⟩

theorem firstFailure?_map_ok_append (more : List Candidate) (l : List Mention) :
    firstFailure? (more.map .ok ++ l) = firstFailure? l := by
  induction more with
  | nil => rfl
  | cons candidate rest ih => exact ih

theorem beforeFailure_map_ok_append (more : List Candidate) (l : List Mention) :
    beforeFailure (more.map .ok ++ l) = more ++ beforeFailure l := by
  induction more with
  | nil => rfl
  | cons candidate rest ih => exact congrArg (candidate :: ·) ih

/-- Candidates in front are gathered before the others. -/
theorem gathered_map_ok_append (more : List Candidate) (l : List Mention) :
    gathered (more.map .ok ++ l) = (gathered l).map (more ++ ·) := by
  rw [gathered, gathered, firstFailure?_map_ok_append, beforeFailure_map_ok_append]
  cases firstFailure? l <;> rfl

/-- What is gathered are all mentions. -/
theorem gathered_eq_ok_iff {l : List Mention} {found : List Candidate} :
    gathered l = .ok found ↔ l = found.map .ok := by
  constructor
  · intro h
    rw [gathered] at h
    split at h
    · cases h
    · rename_i hfailure
      rw [← Except.ok.inj h, map_ok_beforeFailure hfailure]
  · rintro rfl
    have h := gathered_map_ok_append found []
    rw [List.append_nil] at h
    exact h.trans (congrArg Except.ok (List.append_nil found))

/-- One candidate is gathered for each name. -/
theorem length_of_gathered {l : List Mention} {found : List Candidate}
    (h : gathered l = .ok found) : found.length = (l.filterMap Mention.name?).length := by
  rw [gathered_eq_ok_iff.mp h, List.filterMap_map]
  simp [Function.comp_def]

theorem gathered_eq_error_iff {l : List Mention} {e : DiscoveryError} :
    gathered l = .error e ↔ firstFailure? l = some e := by
  rw [gathered]
  cases firstFailure? l <;> simp

/-- Mentions are gathered unless there is a failure. -/
theorem exists_gathered_eq_ok_iff {l : List Mention} :
    (∃ found, gathered l = .ok found) ↔ firstFailure? l = none := by
  rw [gathered]
  cases firstFailure? l <;> simp

/-- The first failure in resources is that of the first resource that fails. -/
theorem firstFailure?_mentions_cons_of_error {capability : CapabilityId} {files : FileTree}
    {r : Resource} {e : DiscoveryError} (h : r.namesIn capability files = .error e)
    (rs : List Resource) : firstFailure? (mentions capability files (r :: rs)) = some e := by
  rw [mentions_cons_of_error h, firstFailure?_cons_error]

theorem firstFailure?_mentions_cons_of_ok {capability : CapabilityId} {files : FileTree}
    {r : Resource} {names : List String} (h : r.namesIn capability files = .ok names)
    (rs : List Resource) :
    firstFailure? (mentions capability files (r :: rs)) =
      firstFailure? (mentions capability files rs) := by
  have hok := firstFailure?_map_ok_append (names.map fun name => ⟨name, r.id⟩)
    (mentions capability files rs)
  rw [List.map_map] at hok
  rw [mentions_cons_of_ok h]
  exact hok

/-- Dropping names leaves the first failure. -/
theorem firstFailure?_firstMentions (skip : String → Bool) (l : List Mention) :
    firstFailure? (firstMentions skip l) = firstFailure? l := by
  rw [firstFailure?, ← List.head?_filterMap, filterMap_failure?_firstMentions,
    List.head?_filterMap, firstFailure?]

/-- **Mentions that are repeated change nothing.** What is gathered stays the same when some of the
mentions in front come once more behind them. -/
theorem gathered_firstMentions_repeated {skip : String → Bool} {front copy : List Mention}
    (h : copy ⊆ front) (back : List Mention) :
    gathered (firstMentions skip (front ++ (copy ++ back))) =
      gathered (firstMentions skip (front ++ back)) := by
  cases hfailure : firstFailure? front with
  | some e =>
    -- The first failure comes before the repetition.
    have hfails : ∀ l, gathered (firstMentions skip (front ++ l)) = .error e := by
      intro l
      rw [gathered_eq_error_iff, firstFailure?_firstMentions, firstFailure?, List.findSome?_append,
        ← firstFailure?, hfailure]
      rfl
    rw [hfails, hfails]
  | none =>
    have hdropped : firstMentions
        (fun name => skip name || (front.filterMap Mention.name?).contains name) copy = [] := by
      refine firstMentions_eq_nil_iff.mpr fun m hm => ?_
      obtain ⟨candidate, rfl⟩ := exists_eq_ok_of_firstFailure?_eq_none hfailure (h hm)
      have hmem : candidate.name ∈ front.filterMap Mention.name? :=
        List.mem_filterMap.mpr ⟨_, h hm, rfl⟩
      exact ⟨candidate, rfl, by simp [hmem]⟩
    rw [firstMentions_append skip front (copy ++ back), firstMentions_append_of_eq_nil hdropped,
      firstMentions_append skip front back]

end ProviderDiscovery
