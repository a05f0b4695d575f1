import ProviderDiscovery.CommandLine.Arguments
import ProviderDiscovery.Proofs.CommandLine.Documented
import Mathlib.Data.List.TakeWhile

/-!
# The reader keeps to what is documented

`documented_readArguments`: the reader that the program runs with does what is documented of one. An
option can still be pending when a command line has been read, but settling it is all that is left
to do (`Reading.Settles`); each law is then about the reading of one or two arguments more.
-/

namespace ProviderDiscovery.CommandLine

/-- What has a result after another one has that one. -/
theorem exists_of_bind_eq_ok {ε α β : Type} {answer : Except ε α} {f : α → Except ε β} {b : β}
    (h : answer.bind f = .ok b) : ∃ a, answer = .ok a ∧ f a = .ok b := by
  cases answer with
  | error e => cases h
  | ok a => exact ⟨a, rfl, h⟩

/-! ### Finding what is declared -/

/-- When no key occurs twice, the element with a given key is found by it. -/
theorem find?_eq_some_of_nodup {α β : Type} [DecidableEq β] {key : α → Option β} {l : List α}
    {a : α} {b : β} (h : (l.filterMap key).Nodup) (ha : a ∈ l) (hkey : key a = some b) :
    l.find? (key · = some b) = some a := by
  induction l with
  | nil => cases ha
  | cons x l ih =>
    by_cases hx : key x = some b
    · rw [List.find?_cons_of_pos (by simpa using hx)]
      rw [List.filterMap_cons_some hx, List.nodup_cons] at h
      rcases List.mem_cons.mp ha with heq | hmem
      · rw [heq]
      · exact absurd (List.mem_filterMap.mpr ⟨a, hmem, hkey⟩) h.1
    · rw [List.find?_cons_of_neg (by simpa using hx)]
      refine ih (h.sublist ((List.sublist_cons_self x l).filterMap key)) ?_
      rcases List.mem_cons.mp ha with heq | hmem
      · exact absurd (heq ▸ hkey) hx
      · exact hmem

section

variable {commands : List CommandSpec} {c : CommandSpec}

/-- A declared command is found by its name. -/
theorem named?_of_mem (h : Sound commands) (hc : c ∈ commands) :
    named? commands c.name = some c := by
  have hnames : (commands.filterMap fun c => some c.name).Nodup := by
    rw [List.filterMap_eq_map']
    exact h.names
  have hfind := find?_eq_some_of_nodup hnames hc rfl
  simp only [Option.some.injEq] at hfind
  exact hfind

variable {a : ArgumentSpec} {id long : String}

theorem long_mem (ha : a ∈ c.arguments) (hlong : a.long? = some long) :
    long ∈ c.arguments.filterMap (·.long?) :=
  List.mem_filterMap.mpr ⟨a, ha, hlong⟩

/-- A declared long name is not the one that asks for help. -/
theorem long_ne_help (h : c.Sound) (ha : a ∈ c.arguments) (hlong : a.long? = some long) :
    long ≠ "help" := by
  intro heq
  exact (List.nodup_cons.mp h.longs).1 (heq ▸ long_mem ha hlong)

/-- An option that takes a value is known by its long name. -/
theorem longFlag_option (h : c.Sound) {short : Option Char} {spec : ValueSpec}
    (ha : ⟨id, .option long short spec⟩ ∈ c.arguments) (attached : Option String) :
    longFlag c long attached = .value id spec attached := by
  have hfind := find?_eq_some_of_nodup (List.nodup_cons.mp h.longs).2 ha rfl
  simp only [longFlag, long_ne_help h ha rfl, if_false, hfind]

/-- An option that takes no value is known by its long name. -/
theorem longFlag_flag (h : c.Sound) (ha : ⟨id, .flag long⟩ ∈ c.arguments) :
    longFlag c long none = .set id := by
  have hfind := find?_eq_some_of_nodup (List.nodup_cons.mp h.longs).2 ha rfl
  simp only [longFlag, long_ne_help h ha rfl, if_false, hfind, flagWithout, Option.isSome_none,
    Bool.false_eq_true]

/-- An option that takes a value is known by its short name. -/
theorem shortFlag_option (h : c.Sound) {s : Char} {spec : ValueSpec}
    (ha : ⟨id, .option long (some s) spec⟩ ∈ c.arguments) :
    shortFlag c s [] = .value id spec none := by
  have hmem : s ∈ c.arguments.filterMap (·.short?) := List.mem_filterMap.mpr ⟨_, ha, rfl⟩
  have hhelp : s ≠ 'h' := by
    intro heq
    exact (List.nodup_cons.mp h.shorts).1 (heq ▸ hmem)
  have hfind := find?_eq_some_of_nodup (List.nodup_cons.mp h.shorts).2 ha rfl
  simp only [shortFlag, hhelp, if_false, hfind, shortValue]

/-- The argument that is no option is found. -/
theorem find?_isPositional (h : c.Sound) {spec : ValueSpec}
    (ha : ⟨id, .positional spec⟩ ∈ c.arguments) :
    c.arguments.find? (·.isPositional) = some ⟨id, .positional spec⟩ := by
  have hmem : ⟨id, .positional spec⟩ ∈ c.arguments.filter (·.isPositional) :=
    List.mem_filter.mpr ⟨ha, rfl⟩
  have hlength := h.positional
  rw [← List.head?_filter]
  revert hmem hlength
  -- With one element at most, the list is nothing but the argument.
  cases c.arguments.filter (·.isPositional) with
  | nil => exact fun hmem => absurd hmem List.not_mem_nil
  | cons b l =>
    intro hmem hlength
    have hnil : l = [] := List.eq_nil_of_length_eq_zero (by simpa using hlength)
    rw [hnil, List.mem_singleton] at hmem
    rw [List.head?_cons, hmem]

end

/-! ### What an argument is -/

/-- A value is no option. -/
theorem ofString_of_isValue {s : String} (h : IsValue s) (c : CommandSpec) :
    Argument.ofString c s = .plain := by
  obtain ⟨hne, hhead⟩ := h
  cases hs : s.toList with
  | nil => exact absurd (String.toList_eq_nil_iff.mp hs) hne
  | cons x rest =>
    have hx : x ≠ '-' := fun heq => hhead (by rw [hs, heq, List.head?_cons])
    rw [Argument.ofString, hs]
    split <;> simp_all

/-- A text without an equals sign is not cut. -/
theorem splitEquals_of_notMem {name : List Char} (h : '=' ∉ name) :
    splitEquals name = (String.ofList name, none) := by
  have hname : ∀ x ∈ name, decide (x ≠ '=') = true := fun x hx =>
    decide_eq_true fun heq => h (heq ▸ hx)
  rw [splitEquals, List.dropWhile_eq_nil_iff.mpr hname]

/-- A text is cut at its first equals sign. -/
theorem splitEquals_append {name : List Char} (h : '=' ∉ name) (value : List Char) :
    splitEquals (name ++ '=' :: value) = (String.ofList name, some (String.ofList value)) := by
  have hname : ∀ x ∈ name, decide (x ≠ '=') = true := fun x hx =>
    decide_eq_true fun heq => h (heq ▸ hx)
  rw [splitEquals, List.dropWhile_append_of_pos hname, List.takeWhile_append_of_pos hname]
  simp

/-- Two dashes with something behind them are a long option. -/
theorem ofString_dashes (c : CommandSpec) {arg : String} {x : Char} {rest : List Char}
    (h : arg.toList = '-' :: '-' :: x :: rest) :
    Argument.ofString c arg =
      .flag (longFlag c (splitEquals (x :: rest)).1 (splitEquals (x :: rest)).2) := by
  rw [Argument.ofString, h]
  rfl

/-- A long option. -/
theorem ofString_long (c : CommandSpec) {name : String} (hne : name ≠ "")
    (h : '=' ∉ name.toList) :
    Argument.ofString c ("--" ++ name) = .flag (longFlag c name none) := by
  have hcut := splitEquals_of_notMem h
  have hlist : ("--" ++ name).toList = '-' :: '-' :: name.toList := by simp
  cases hs : name.toList with
  | nil => exact absurd (String.toList_eq_nil_iff.mp hs) hne
  | cons x rest =>
    rw [hs] at hcut hlist
    rw [ofString_dashes c hlist, hcut, ← hs, String.ofList_toList]

/-- A long option with its value attached. -/
theorem ofString_attached (c : CommandSpec) {name : String} (h : '=' ∉ name.toList)
    (value : String) :
    Argument.ofString c ("--" ++ name ++ "=" ++ value) =
      .flag (longFlag c name (some value)) := by
  have hlist : ("--" ++ name ++ "=" ++ value).toList =
      '-' :: '-' :: (name.toList ++ '=' :: value.toList) := by
    simp
  have hcut := splitEquals_append h value.toList
  cases hs : name.toList ++ '=' :: value.toList with
  | nil => simp at hs
  | cons x rest =>
    rw [hs] at hcut hlist
    rw [ofString_dashes c hlist, hcut, String.ofList_toList, String.ofList_toList]

/-- A short option. -/
theorem ofString_short (c : CommandSpec) {s : Char} (h : s ≠ '-') :
    Argument.ofString c (String.ofList ['-', s]) = .flag (shortFlag c s []) := by
  rw [Argument.ofString, String.toList_ofList]
  split
  · simp_all
  · simp_all
  · rename_i name rest _ heq
    simp only [List.cons.injEq, true_and] at heq
    rw [← heq.1, ← heq.2]
  · simp_all

/-- Only two dashes end the options. -/
theorem eq_of_ofString_escape {c : CommandSpec} {arg : String}
    (h : Argument.ofString c arg = .escape) : arg = "--" := by
  rw [Argument.ofString] at h
  split at h
  · rename_i heq
    rw [← String.ofList_toList (s := arg), heq]
  all_goals cases h

/-! ### Reading -/

namespace Reading

variable {c : CommandSpec} {r : Reading} {m : Matches}

theorem readAll_append (c : CommandSpec) (r : Reading) (args more : List String) :
    r.readAll c (args ++ more) = (r.readAll c args).bind fun r => r.readAll c more := by
  induction args generalizing r with
  | nil => rfl
  | cons arg rest ih =>
    rw [List.cons_append, readAll, readAll]
    cases r.read c arg with
    | error e => rfl
    | ok r => exact ih r

/-- A value that is settled leaves everything else as it was. -/
theorem settle_eq_ok {id value : String} {spec : ValueSpec} {r' : Reading}
    (h : r.settle id spec value = .ok r') : r' = { r with given := r.given.add id value } := by
  rw [settle] at h
  split at h
  · cases h
  · split at h
    · cases h
    · exact (Except.ok.inj h).symm

/-- A value that may be given is settled. -/
theorem settle_of_isValue {id value : String} {spec : ValueSpec} (hvalue : IsValue value)
    (honce : spec.repeats ∨ r.given.values id = []) :
    r.settle id spec value = .ok { r with given := r.given.add id value } := by
  rw [settle, if_neg, if_neg]
  · simp [hvalue.1]
  · rcases honce with hrepeats | hnil <;> simp_all

/-- When the pending option is settled, nothing is pending; what was given stays, and whether
options follow does not change. -/
theorem settlePending_eq_ok {r' : Reading} (h : r.settlePending = .ok r') :
    r'.pending = none ∧ r'.escaped = r.escaped ∧
      ∀ id, r'.given.values id = [] → r.given.values id = [] := by
  rw [settlePending] at h
  split at h
  · rename_i hpending
    cases h
    exact ⟨hpending, rfl, fun _ hid => hid⟩
  · cases h
  · rw [settle_eq_ok h]
    refine ⟨rfl, rfl, fun id hid => ?_⟩
    simp only [Matches.add] at hid
    split at hid
    · exact (List.append_eq_nil_iff.mp hid).1
    · exact hid

theorem escaped_settlePending {r' : Reading} (hr : r.escaped = false)
    (h : r.settlePending = .ok r') : r'.escaped = false :=
  (settlePending_eq_ok h).2.1.trans hr

theorem escaped_readPlain {r' : Reading} {arg : String} (hr : r.escaped = false)
    (h : r.readPlain c arg = .ok r') : r'.escaped = false := by
  rw [readPlain] at h
  split at h
  · cases h
    exact hr
  · split at h
    · split at h
      · obtain ⟨r₁, hsettled, hsettle⟩ := exists_of_bind_eq_ok h
        rw [settle_eq_ok hsettle]
        exact (escaped_settlePending hr hsettled :)
      · cases h
    · cases h

theorem escaped_readFlag {r' : Reading} {f : Flag} (hr : r.escaped = false)
    (h : r.readFlag f = .ok r') : r'.escaped = false := by
  cases f with
  | wrong e => cases h
  | help =>
    obtain ⟨_, -, hhelp⟩ := exists_of_bind_eq_ok h
    cases hhelp
  | set id =>
    obtain ⟨r₁, hsettled, hset⟩ := exists_of_bind_eq_ok h
    split at hset
    · cases hset
    · cases hset
      exact (escaped_settlePending hr hsettled :)
  | value id spec attached =>
    cases attached with
    | none =>
      rw [readFlag] at h
      cases hsettled : r.settlePending with
      | error e => rw [hsettled] at h; cases h
      | ok r₁ =>
        rw [hsettled] at h
        cases h
        exact (escaped_settlePending hr hsettled :)
    | some value =>
      obtain ⟨r₁, hsettled, hsettle⟩ := exists_of_bind_eq_ok h
      rw [settle_eq_ok hsettle]
      exact (escaped_settlePending hr hsettled :)

/-- Only two dashes make a reading one in which no options follow. -/
theorem escaped_read {r' : Reading} {arg : String} (hr : r.escaped = false) (harg : arg ≠ "--")
    (h : r.read c arg = .ok r') : r'.escaped = false := by
  rw [read, hr, if_neg Bool.false_ne_true] at h
  split at h
  · exact absurd (eq_of_ofString_escape ‹_›) harg
  · exact escaped_readFlag hr h
  · exact escaped_readPlain hr h

theorem escaped_readAll {args : List String} {r' : Reading} (hr : r.escaped = false)
    (hdash : "--" ∉ args) (h : r.readAll c args = .ok r') : r'.escaped = false := by
  induction args generalizing r with
  | nil =>
    cases h
    exact hr
  | cons arg rest ih =>
    rw [List.mem_cons, not_or] at hdash
    obtain ⟨r₁, hread, hrest⟩ := exists_of_bind_eq_ok h
    exact ih (escaped_read hr (Ne.symm hdash.1) hread) hdash.2 hrest

/-- The reading **settles** to what was given: settling the pending option is all that is left. -/
structure Settles (r : Reading) (m : Matches) : Prop where
  settled : r.settlePending = .ok ⟨m, none, false⟩
  escaped : r.escaped = false

theorem settles_mk (m : Matches) : Settles ⟨m, none, false⟩ m := ⟨rfl, rfl⟩

/-- An option is read as what it asks for. -/
theorem read_of_flag (h : r.Settles m) {arg : String} {f : Flag}
    (harg : Argument.ofString c arg = .flag f) : r.read c arg = r.readFlag f := by
  simp only [read, h.escaped, harg, Bool.false_eq_true, if_false]

/-- What has been settled was not given before. -/
theorem Settles.values_eq_nil (h : r.Settles m) {id : String} (hid : m.values id = []) :
    r.given.values id = [] :=
  (settlePending_eq_ok h.settled).2.2 id hid

/-- Nothing waits for a value in a reading that settles. -/
theorem readPlain_of_settles (h : r.Settles m) {id value : String} {spec : ValueSpec}
    (hfind : c.arguments.find? (·.isPositional) = some ⟨id, .positional spec⟩)
    (hvalue : IsValue value) (honce : spec.repeats ∨ m.values id = []) :
    r.readPlain c value = .ok ⟨m.add id value, none, false⟩ := by
  have hmore : (spec.repeats || r.given.values id = []) = true := by
    rcases honce with hrepeats | hnil
    · rw [hrepeats, Bool.true_or]
    · rw [decide_eq_true (h.values_eq_nil hnil), Bool.or_true]
  have hsettled := h.settled
  rw [readPlain]
  rw [settlePending] at hsettled
  split
  · rename_i hpending _
    rw [hpending] at hsettled
    cases hsettled
  · rw [hfind]
    simp only [hmore, if_true, h.settled, Except.bind]
    exact settle_of_isValue hvalue honce

/-- An option and the value that follows it. -/
theorem settles_separate (h : r.Settles m) {arg id value : String} {spec : ValueSpec}
    (harg : Argument.ofString c arg = .flag (.value id spec none)) (hvalue : IsValue value)
    (honce : spec.repeats ∨ m.values id = []) :
    ∃ r', r.readAll c [arg, value] = .ok r' ∧ r'.Settles (m.add id value) := by
  refine ⟨⟨m, some (id, spec, some value), false⟩, ?_, ?_, rfl⟩
  · simp only [readAll, read_of_flag h harg, readFlag, h.settled, Except.map, Except.bind]
    simp only [read, ofString_of_isValue hvalue, readPlain, Bool.false_eq_true, if_false]
  · rw [settlePending]
    exact settle_of_isValue hvalue honce

/-- An option with its value attached. -/
theorem settles_attached (h : r.Settles m) {arg id value : String} {spec : ValueSpec}
    (harg : Argument.ofString c arg = .flag (.value id spec (some value)))
    (hvalue : IsValue value) (honce : spec.repeats ∨ m.values id = []) :
    ∃ r', r.readAll c [arg] = .ok r' ∧ r'.Settles (m.add id value) := by
  refine ⟨⟨m.add id value, none, false⟩, ?_, settles_mk _⟩
  simp only [readAll, read_of_flag h harg, readFlag, h.settled, Except.bind]
  rw [settle_of_isValue hvalue honce]

/-- An option with a value, however it is spelled. -/
theorem settles_option (hc : c.Sound) (h : r.Settles m) {id long value : String}
    {short : Option Char} {spec : ValueSpec}
    (hoption : ⟨id, .option long short spec⟩ ∈ c.arguments) {part : List String}
    (hpart : SpelledOption long short value part) (hvalue : IsValue value)
    (honce : spec.repeats ∨ m.values id = []) :
    ∃ r', r.readAll c part = .ok r' ∧ r'.Settles (m.add id value) := by
  obtain ⟨hne, hequals⟩ := hc.longs_plain long (long_mem hoption rfl)
  cases hpart with
  | long =>
    refine settles_separate h ?_ hvalue honce
    rw [ofString_long c hne hequals, longFlag_option hc hoption]
  | attached =>
    refine settles_attached h ?_ hvalue honce
    rw [ofString_attached c hequals, longFlag_option hc hoption]
  | @short s hs =>
    subst hs
    have hdash : s ≠ '-' := by
      intro heq
      exact hc.shorts_plain (heq ▸ List.mem_filterMap.mpr ⟨_, hoption, rfl⟩)
    refine settles_separate h ?_ hvalue honce
    rw [ofString_short c hdash, shortFlag_option hc hoption]

/-- An option without a value. -/
theorem settles_flag (hc : c.Sound) (h : r.Settles m) {id long : String}
    (hflag : ⟨id, .flag long⟩ ∈ c.arguments) (honce : m.flags id = false) :
    ∃ r', r.readAll c ["--" ++ long] = .ok r' ∧ r'.Settles (m.set id) := by
  obtain ⟨hne, hequals⟩ := hc.longs_plain long (long_mem hflag rfl)
  have harg : Argument.ofString c ("--" ++ long) = .flag (.set id) := by
    rw [ofString_long c hne hequals, longFlag_flag hc hflag]
  refine ⟨⟨m.set id, none, false⟩, ?_, settles_mk _⟩
  simp only [readAll, read_of_flag h harg, readFlag, h.settled, Except.bind, honce,
    Bool.false_eq_true, if_false]

/-- A value of the argument that is no option. -/
theorem settles_positional (hc : c.Sound) (h : r.Settles m) {id value : String}
    {spec : ValueSpec} (hpositional : ⟨id, .positional spec⟩ ∈ c.arguments)
    (hvalue : IsValue value) (honce : spec.repeats ∨ m.values id = []) :
    ∃ r', r.readAll c [value] = .ok r' ∧ r'.Settles (m.add id value) := by
  refine ⟨⟨m.add id value, none, false⟩, ?_, settles_mk _⟩
  simp only [readAll, read, h.escaped, ofString_of_isValue hvalue, Bool.false_eq_true, if_false]
  rw [readPlain_of_settles h (find?_isPositional hc hpositional) hvalue honce]
  rfl

end Reading

/-! ### Command lines -/

section

variable {commands : List CommandSpec} {c : CommandSpec} {args : List String} {m : Matches}

/-- A command line that names a command is read as this command. -/
theorem readArguments_name (hsound : Sound commands) (hc : c ∈ commands) (args : List String) :
    readArguments commands (c.name :: args) = readCommand c args := by
  obtain ⟨hvalue, hhelp⟩ := (hsound.each c hc).name
  have hdash : c.name ≠ "--" := by
    intro heq
    rw [heq] at hvalue
    exact absurd hvalue (by decide)
  rw [readArguments]
  · rw [named?_of_mem hsound hc]
  · exact hhelp
  · exact fun heq => absurd heq hdash
  · exact fun _ _ heq => absurd heq hdash

/-- What is given by a command line, when all is given that has to be. -/
theorem finish_eq_ok_iff {r : Reading} :
    r.finish c = .ok m ↔
      ∃ r', r.settlePending = .ok r' ∧ r'.given = m ∧ ∀ id ∈ c.required, m.values id ≠ [] := by
  rw [Reading.finish]
  cases r.settlePending with
  | error e => simp [Except.bind]
  | ok r' =>
    simp only [Except.bind, Except.ok.injEq, exists_eq_left']
    split
    · rename_i hmissing
      obtain ⟨id, hid, hnil⟩ := List.any_eq_true.mp hmissing
      constructor
      · exact fun h => by cases h
      · rintro ⟨rfl, hgiven⟩
        exact absurd (of_decide_eq_true hnil) (hgiven id hid)
    · rename_i hgiven
      rw [Except.ok.injEq]
      refine ⟨fun heq => ⟨heq, fun id hid hnil => hgiven ?_⟩, fun h => h.1⟩
      exact List.any_eq_true.mpr ⟨id, hid, decide_eq_true (heq ▸ hnil)⟩

/-- What is given by a command line is what its reading settles to. -/
theorem settles_of_readCommand (hdash : "--" ∉ args) (h : readCommand c args = .ok m) :
    ∃ r, (Reading.start c).readAll c args = .ok r ∧ r.Settles m ∧
      ∀ id ∈ c.required, m.values id ≠ [] := by
  obtain ⟨r, hread, hfinish⟩ := exists_of_bind_eq_ok h
  obtain ⟨r', hsettled, rfl, hrequired⟩ := finish_eq_ok_iff.mp hfinish
  have hr := Reading.escaped_readAll rfl hdash hread
  have heq : r' = ⟨r'.given, none, false⟩ := by
    rw [← (Reading.settlePending_eq_ok hsettled).1, ← Reading.escaped_settlePending hr hsettled]
  exact ⟨r, hread, ⟨heq ▸ hsettled, hr⟩, hrequired⟩

/-- A reading that settles to what was given gives a command line, when all is given that has to
be. -/
theorem readCommand_of_settles {r : Reading} (hread : (Reading.start c).readAll c args = .ok r)
    (hr : r.Settles m) (hrequired : ∀ id ∈ c.required, m.values id ≠ []) :
    readCommand c args = .ok m := by
  rw [readCommand, hread]
  exact finish_eq_ok_iff.mpr ⟨_, hr.settled, rfl, hrequired⟩

/-- One part more is read, when it adds to what was given. -/
theorem readCommand_append (hdash : "--" ∉ args) (h : readCommand c args = .ok m)
    {part : List String} {m' : Matches}
    (hpart : ∀ r : Reading, r.Settles m → ∃ r', r.readAll c part = .ok r' ∧ r'.Settles m')
    (hmore : ∀ id, m.values id ≠ [] → m'.values id ≠ []) :
    readCommand c (args ++ part) = .ok m' := by
  obtain ⟨r, hread, hr, hrequired⟩ := settles_of_readCommand hdash h
  obtain ⟨r', hread', hr'⟩ := hpart r hr
  refine readCommand_of_settles ?_ hr' fun id hid => hmore id (hrequired id hid)
  rw [Reading.readAll_append, hread]
  exact hread'

theorem add_values_ne_nil (m : Matches) (id value : String) {i : String} (h : m.values i ≠ []) :
    (m.add id value).values i ≠ [] := by
  simp only [Matches.add]
  split
  · exact List.append_ne_nil_of_left_ne_nil h _
  · exact h

end

/-- What has to be given makes no difference to how arguments are read. -/
theorem readAll_relaxed (c : CommandSpec) (r : Reading) (args : List String) :
    r.readAll c.relaxed args = r.readAll c args := by
  induction args generalizing r with
  | nil => rfl
  | cons arg rest ih =>
    have hread : r.read c.relaxed arg = r.read c arg := by rfl
    rw [Reading.readAll, Reading.readAll, hread]
    cases r.read c arg with
    | error e => rfl
    | ok r => exact ih r

theorem sound_relaxed {commands : List CommandSpec} (h : Sound commands) :
    Sound (commands.map (·.relaxed)) := by
  refine ⟨?_, fun c hc => ?_⟩
  · rw [List.map_map]
    exact h.names
  · obtain ⟨c, hmem, rfl⟩ := List.mem_map.mp hc
    have hsound := h.each c hmem
    exact ⟨hsound.name, hsound.ids, hsound.longs, hsound.shorts, hsound.longs_plain,
      hsound.shorts_plain, hsound.positional⟩

/-- **The reader keeps to what is documented.** -/
theorem documented_readArguments : Documented readArguments where
  command := by
    intro commands c hsound hc hrequired
    rw [readArguments_name hsound hc]
    refine readCommand_of_settles rfl (Reading.settles_mk _) ?_
    rw [hrequired]
    exact fun _ hid => absurd hid List.not_mem_nil
  option := by
    intro commands c args part m id long value short spec hsound hc hoption hread hdash hpart
      hvalue honce
    rw [readArguments_name hsound hc] at hread ⊢
    exact readCommand_append hdash hread
      (fun r hr => Reading.settles_option (hsound.each c hc) hr hoption hpart hvalue honce)
      fun _ => add_values_ne_nil m id value
  flag := by
    intro commands c args m id long hsound hc hflag hread hdash honce
    rw [readArguments_name hsound hc] at hread ⊢
    exact readCommand_append hdash hread
      (fun r hr => Reading.settles_flag (hsound.each c hc) hr hflag honce) fun _ h => h
  positional := by
    intro commands c args m id value spec hsound hc hpositional hread hdash hvalue honce
    rw [readArguments_name hsound hc] at hread ⊢
    exact readCommand_append hdash hread
      (fun r hr => Reading.settles_positional (hsound.each c hc) hr hpositional hvalue honce)
      fun _ => add_values_ne_nil m id value
  required := by
    intro commands c args m hsound hc hread hgiven
    have hrelaxed : c.relaxed ∈ commands.map (·.relaxed) := List.mem_map_of_mem hc
    have hname : c.name = c.relaxed.name := rfl
    rw [hname, readArguments_name (sound_relaxed hsound) hrelaxed] at hread
    rw [readArguments_name hsound hc]
    obtain ⟨r, hall, hfinish⟩ := exists_of_bind_eq_ok hread
    obtain ⟨r', hsettled, hm, -⟩ := finish_eq_ok_iff.mp hfinish
    rw [readAll_relaxed] at hall
    have hstart : Reading.start c.relaxed = Reading.start c := rfl
    rw [readCommand, ← hstart, hall]
    exact finish_eq_ok_iff.mpr ⟨r', hsettled, hm, hgiven⟩

end ProviderDiscovery.CommandLine
