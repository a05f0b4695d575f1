import ProviderDiscovery.Proofs.CommandLine.Reader

/-!
# Commands that are written out

A command can be written as arguments in many ways: what it says comes clause by clause, the clauses
of different kinds in any order among each other, and an entry of the class path or an installation
has more than one spelling. `Writes` says which arguments write a command, without reading them, and
`parse_of_writes` that any reader that keeps to what is documented reads them as this command.

The induction is on the clauses: the laws of the reader are about one argument more, and what is
given by a command line is what its clauses give (`Matches.ofClauses`). A command line that is not
complete yet may lack what has to be given, so the induction runs on the program in which nothing
has to be.
-/

namespace ProviderDiscovery.CommandLine

/-! ### Clauses and their spellings -/

/-- A **clause** of a command: one thing that it says besides its name. -/
inductive Clause where
  /-- A capability. -/
  | capability (text : String)
  /-- An entry of the class path. -/
  | entry (path : Path)
  /-- The installation. -/
  | home (folder : Path)
  /-- The report is to be in JSON. -/
  | json
  deriving DecidableEq

namespace Clause

/-- The capability that a clause names. -/
def capability? : Clause → Option String
  | .capability text => some text
  | _ => none

/-- The entry that a clause names. -/
def entry? : Clause → Option Path
  | .entry path => some path
  | _ => none

/-- The installation that a clause names. -/
def home? : Clause → Option Path
  | .home folder => some folder
  | _ => none

/-- The **spellings** of a clause as arguments. -/
inductive Spelled : Clause → List String → Prop where
  | capability (text : String) : Spelled (.capability text) [text]
  | entryShort (path : Path) : Spelled (.entry path) ["-c", path.text]
  | entryLong (path : Path) : Spelled (.entry path) ["--class-path", path.text]
  | entryAttached (path : Path) : Spelled (.entry path) ["--class-path=" ++ path.text]
  | homeLong (folder : Path) : Spelled (.home folder) ["--home", folder.text]
  | homeAttached (folder : Path) : Spelled (.home folder) ["--home=" ++ folder.text]
  | json : Spelled .json ["--json"]

end Clause

/-- Clauses that are spelled one after the other. -/
inductive Spells : List Clause → List String → Prop where
  | nil : Spells [] []
  | cons {clause : Clause} {clauses : List Clause} {part args : List String}
      (h : clause.Spelled part) (hrest : Spells clauses args) :
      Spells (clause :: clauses) (part ++ args)

/-- The clauses **say** this much, the capabilities and the entries in this order. -/
structure Says (clauses : List Clause) (capabilities : List String) (scope : ScopeArguments)
    (json : Bool) : Prop where
  capabilities : clauses.filterMap Clause.capability? = capabilities
  classPath : clauses.filterMap Clause.entry? = scope.classPath
  home : clauses.filterMap Clause.home? = scope.home.toList
  json : clauses.count .json = json.toNat

/-- The arguments **write** a command: first its name, and then the clauses that say what it says,
in any order that keeps those of the capabilities and of the entries. -/
inductive Writes : Command → List String → Prop where
  | check {capabilities : List String} {scope : ScopeArguments} {clauses : List Clause}
      {args : List String} (h : Says clauses capabilities scope false)
      (hargs : Spells clauses args) :
      Writes (.check capabilities scope) ("check" :: args)
  | list {capability : String} {scope : ScopeArguments} {json : Bool} {clauses : List Clause}
      {args : List String} (h : Says clauses [capability] scope json)
      (hargs : Spells clauses args) :
      Writes (.list capability scope json) ("list" :: args)
  | services {scope : ScopeArguments} {json : Bool} {clauses : List Clause}
      {args : List String} (h : Says clauses [] scope json) (hargs : Spells clauses args) :
      Writes (.services scope json) ("services" :: args)

/-- The values in options that settle a class path. -/
def ScopeArguments.values (scope : ScopeArguments) : List String :=
  (scope.classPath ++ scope.home.toList).map Path.text

/-- The values in a command. -/
def Command.values : Command → List String
  | .check capabilities scope => capabilities ++ scope.values
  | .list capability scope _ => capability :: scope.values
  | .services scope _ => scope.values

/-! ### What clauses give -/

/-- What clauses **give**. The argument that is no option has another identifier in each command. -/
def Matches.ofClauses (command positional : String) (clauses : List Clause) : Matches where
  command := command
  values id :=
    if id = positional then clauses.filterMap Clause.capability?
    else if id = "class_path" then (clauses.filterMap Clause.entry?).map Path.text
    else if id = "home" then (clauses.filterMap Clause.home?).map Path.text
    else []
  flags id := id = "json" && decide (.json ∈ clauses)

/-- What one clause more adds to what was given. -/
def Matches.give (m : Matches) (positional : String) : Clause → Matches
  | .capability text => m.add positional text
  | .entry path => m.add "class_path" path.text
  | .home folder => m.add "home" folder.text
  | .json => m.set "json"

theorem ofClauses_nil (command positional : String) :
    Matches.ofClauses command positional [] = .bare command := by
  simp [Matches.ofClauses, Matches.bare]

theorem ofClauses_append (command : String) {positional : String}
    (hclassPath : positional ≠ "class_path") (hhome : positional ≠ "home")
    (clauses : List Clause) (clause : Clause) :
    Matches.ofClauses command positional (clauses ++ [clause]) =
      (Matches.ofClauses command positional clauses).give positional clause := by
  cases clause <;>
    simp only [Matches.ofClauses, Matches.give, Matches.add, Matches.set, List.filterMap_append,
      List.filterMap_cons, List.filterMap_nil, Clause.capability?, Clause.entry?, Clause.home?,
      List.append_nil, Matches.mk.injEq, true_and]
  case capability text =>
    refine ⟨funext fun id => ?_, by simp⟩
    by_cases hid : id = positional <;> simp [hid]
  case entry path =>
    refine ⟨funext fun id => ?_, by simp⟩
    by_cases hid : id = "class_path" <;> simp [hid, hclassPath.symm]
  case home folder =>
    refine ⟨funext fun id => ?_, by simp⟩
    by_cases hid : id = "home" <;> simp [hid, hhome.symm]
  case json =>
    funext id
    by_cases hid : id = "json" <;> simp [hid]

/-! ### Reading clauses -/

/-- A value is not two dashes. -/
theorem IsValue.ne_dashes {s : String} (h : IsValue s) : s ≠ "--" := by
  intro heq
  rw [heq] at h
  exact absurd h (by decide)

/-- A text behind dashes and more is not two dashes. -/
theorem append_ne_dashes {front : String} (h : 2 < front.length) (s : String) :
    front ++ s ≠ "--" := by
  intro heq
  have hlength := congrArg String.length heq
  rw [String.length_append] at hlength
  have htwo : "--".length = 2 := by rfl
  omega

/-- A clause **fits** behind others when the command takes it: one more argument, an installation
once, and JSON once if the command can report in it. -/
def Fits (c : CommandSpec) (positional : String) (clauses : List Clause) : Clause → Prop
  | .capability text =>
    IsValue text ∧ ∃ spec : ValueSpec, ⟨positional, .positional spec⟩ ∈ c.arguments ∧
      (spec.repeats ∨ clauses.filterMap Clause.capability? = [])
  | .entry path => IsValue path.text
  | .home folder => IsValue folder.text ∧ clauses.filterMap Clause.home? = []
  | .json => jsonSpec ∈ c.arguments ∧ .json ∉ clauses

/-- A command **takes** what is said when it has the options that settle a class path, the argument
that is no option for the capabilities, and the option for JSON, as far as they are needed, and
nothing else has to be given. -/
structure Takes (c : CommandSpec) (positional : String) (capabilities : List String) (json : Bool) :
    Prop where
  scope : ∀ a ∈ scopeSpecs, a ∈ c.arguments
  positional_ne : positional ≠ "class_path" ∧ positional ≠ "home"
  taken : capabilities ≠ [] → ∃ spec : ValueSpec,
    ⟨positional, .positional spec⟩ ∈ c.arguments ∧ (spec.repeats ∨ capabilities.length ≤ 1)
  reports : json → jsonSpec ∈ c.arguments
  required : ∀ id ∈ c.required, id = positional ∧ capabilities ≠ []

section

variable {read : ArgumentReader} {commands : List CommandSpec} {c : CommandSpec}
  {positional : String} {clauses : List Clause} {args part : List String}

/-- No clause that fits is spelled with two dashes alone. -/
theorem dashes_notMem {clause : Clause} (hfits : Fits c positional clauses clause)
    (hpart : clause.Spelled part) : "--" ∉ part := by
  cases hpart with
  | capability text => simpa using hfits.1.ne_dashes.symm
  | entryShort path => simpa using (IsValue.ne_dashes hfits).symm
  | entryLong path => simpa using (IsValue.ne_dashes hfits).symm
  | entryAttached path => simpa using (append_ne_dashes (by decide) path.text).symm
  | homeLong folder => simpa using hfits.1.ne_dashes.symm
  | homeAttached folder => simpa using (append_ne_dashes (by decide) folder.text).symm
  | json => decide

/-- A clause that fits is read, however it is spelled. -/
theorem read_clause (hread : Documented read) (hsound : Sound commands) (hc : c ∈ commands)
    (hscope : ∀ a ∈ scopeSpecs, a ∈ c.arguments) (hclassPath : positional ≠ "class_path")
    (hhome : positional ≠ "home") {clause : Clause} (hfits : Fits c positional clauses clause)
    (hpart : clause.Spelled part) (hdash : "--" ∉ args)
    (h : read commands (c.name :: args) = .ok (.ofClauses c.name positional clauses)) :
    read commands (c.name :: (args ++ part)) =
      .ok (.ofClauses c.name positional (clauses ++ [clause])) := by
  rw [ofClauses_append c.name hclassPath hhome]
  have hentry : ∀ {path : Path}, IsValue path.text →
      SpelledOption "class-path" (some 'c') path.text part →
      read commands (c.name :: (args ++ part)) =
        .ok ((Matches.ofClauses c.name positional clauses).give positional (.entry path)) := by
    intro path hvalue hspelled
    exact hread.option hsound hc (hscope _ List.mem_cons_self) h hdash hspelled hvalue (.inl rfl)
  have hfolder : ∀ {folder : Path}, Fits c positional clauses (.home folder) →
      SpelledOption "home" none folder.text part →
      read commands (c.name :: (args ++ part)) =
        .ok ((Matches.ofClauses c.name positional clauses).give positional (.home folder)) := by
    intro folder hfits hspelled
    refine hread.option hsound hc (hscope _ (List.mem_cons_of_mem _ List.mem_cons_self)) h hdash
      hspelled hfits.1 (.inr ?_)
    simp [Matches.ofClauses, hhome.symm, hfits.2]
  cases hpart with
  | capability text =>
    obtain ⟨hvalue, spec, hspec, honce⟩ := hfits
    refine hread.positional hsound hc hspec h hdash hvalue (honce.imp_right fun hnil => ?_)
    simp [Matches.ofClauses, hnil]
  | entryShort path => exact hentry hfits (.short rfl)
  | entryLong path => exact hentry hfits .long
  | entryAttached path => exact hentry hfits .attached
  | homeLong folder => exact hfolder hfits .long
  | homeAttached folder => exact hfolder hfits .attached
  | json =>
    refine hread.flag hsound hc hfits.1 h hdash ?_
    simp [Matches.ofClauses, hfits.2]

/-- Clauses that fit, each behind those before it, are read one after the other. -/
theorem read_clauses (hread : Documented read) (hsound : Sound commands) (hc : c ∈ commands)
    (hscope : ∀ a ∈ scopeSpecs, a ∈ c.arguments)
    (hclassPath : positional ≠ "class_path") (hhome : positional ≠ "home") {more : List Clause}
    {back : List String} (hback : Spells more back)
    (hfits : ∀ before clause after, more = before ++ clause :: after →
      Fits c positional (clauses ++ before) clause) (hdash : "--" ∉ args)
    (h : read commands (c.name :: args) = .ok (.ofClauses c.name positional clauses)) :
    read commands (c.name :: (args ++ back)) =
      .ok (.ofClauses c.name positional (clauses ++ more)) := by
  -- The induction moves one clause after the other from those to come to those that have been read.
  induction hback generalizing args clauses with
  | nil => rwa [List.append_nil, List.append_nil]
  | @cons clause rest part back hpart hrest ih =>
    have hclause := hfits [] clause rest rfl
    rw [List.append_nil] at hclause
    have hnext := read_clause hread hsound hc hscope hclassPath hhome hclause hpart hdash h
    have hdashes : "--" ∉ args ++ part := by
      rw [List.mem_append, not_or]
      exact ⟨hdash, dashes_notMem hclause hpart⟩
    have hall := ih (fun before next after heq => by
      rw [List.append_assoc]
      exact hfits (clause :: before) next after (by rw [heq, List.cons_append])) hdashes hnext
    rwa [List.append_assoc, List.append_assoc] at hall

end

/-! ### Reading commands -/

section

variable {clauses : List Clause} {capabilities : List String} {scope : ScopeArguments} {json : Bool}
  {c : CommandSpec} {positional : String}

/-- The clauses of what is said to a command fit, each behind those before it. -/
theorem Says.fits (h : Says clauses capabilities scope json)
    (htakes : Takes c positional capabilities json)
    (hvalues : ∀ s ∈ capabilities ++ scope.values, IsValue s) {before after : List Clause}
    {clause : Clause} (heq : clauses = before ++ clause :: after) :
    Fits c positional before clause := by
  obtain ⟨-, -, hmore, hjson, -⟩ := htakes
  obtain ⟨hcapabilities, hentries, hhome, hcount⟩ := h
  rw [ScopeArguments.values, ← hcapabilities, ← hentries, ← hhome] at hvalues
  subst heq
  cases clause with
  | capability text =>
    refine ⟨hvalues text (by simp [Clause.capability?]), ?_⟩
    obtain ⟨spec, hspec, honce⟩ := hmore (by rw [← hcapabilities]; simp [Clause.capability?])
    refine ⟨spec, hspec, honce.imp_right fun hle => ?_⟩
    -- Another capability in front would make two of them.
    rw [← hcapabilities, List.filterMap_append, List.filterMap_cons] at hle
    simp only [Clause.capability?, List.length_append, List.length_cons] at hle
    exact List.eq_nil_of_length_eq_zero (by omega)
  | entry path => exact hvalues path.text (by simp [Clause.entry?])
  | home folder =>
    refine ⟨hvalues folder.text (by simp [Clause.home?]), ?_⟩
    have hlength := congrArg List.length hhome
    rw [List.filterMap_append, List.filterMap_cons] at hlength
    have hle : scope.home.toList.length ≤ 1 := by cases scope.home <;> simp
    simp only [Clause.home?, List.length_append, List.length_cons] at hlength
    exact List.eq_nil_of_length_eq_zero (by omega)
  | json =>
    rw [List.count_append, List.count_cons_self] at hcount
    cases json with
    | false => simp at hcount
    | true =>
      refine ⟨hjson rfl, List.count_eq_zero.mp ?_⟩
      rw [Bool.toNat_true] at hcount
      omega

/-- The class path that clauses give is the one that they say. -/
theorem Says.scope_ofClauses (h : Says clauses capabilities scope json)
    (hpositional : positional ≠ "class_path" ∧ positional ≠ "home") (command : String) :
    ScopeArguments.ofMatches (.ofClauses command positional clauses) = scope := by
  have hclassPath : (Matches.ofClauses command positional clauses).values "class_path" =
      scope.classPath.map Path.text := by
    simp [Matches.ofClauses, hpositional.1.symm, h.classPath]
  have hhome : (Matches.ofClauses command positional clauses).values "home" =
      scope.home.toList.map Path.text := by
    simp [Matches.ofClauses, hpositional.2.symm, h.home]
  have hpath : Path.mk ∘ Path.text = id := by rfl
  simp only [ScopeArguments.ofMatches, hclassPath, hhome, List.head?_map, Option.head?_toList,
    List.map_map, Option.map_map, hpath, List.map_id, Option.map_id_fun, id]

/-- JSON is asked for by what clauses give if they say so. -/
theorem Says.json_ofClauses (h : Says clauses capabilities scope json)
    (command positional : String) :
    (Matches.ofClauses command positional clauses).flags "json" = json := by
  have hjson : decide (.json ∈ clauses) = json := by
    rw [Bool.eq_iff_iff, decide_eq_true_iff, ← List.count_pos_iff, h.json]
    cases json <;> decide
  simp [Matches.ofClauses, hjson]

/-- The capabilities that clauses give are those that they say. -/
theorem Says.capabilities_ofClauses (h : Says clauses capabilities scope json)
    (command positional : String) :
    (Matches.ofClauses command positional clauses).values positional = capabilities := by
  simp [Matches.ofClauses, h.capabilities]

theorem sound_program : Sound program := by decide +kernel

theorem sound_relaxed_program : Sound (program.map (·.relaxed)) := by decide +kernel

/-- The name of a command and what is said to it are read as what the clauses give. -/
theorem read_of_says {read : ArgumentReader} (hread : Documented read) (hc : c ∈ program)
    (htakes : Takes c positional capabilities json) (h : Says clauses capabilities scope json)
    (hvalues : ∀ s ∈ capabilities ++ scope.values, IsValue s) {args : List String}
    (hargs : Spells clauses args) :
    read program (c.name :: args) = .ok (.ofClauses c.name positional clauses) := by
  have hrelaxed : c.relaxed ∈ program.map (·.relaxed) := List.mem_map_of_mem hc
  have hstart := hread.command sound_relaxed_program hrelaxed rfl
  rw [← ofClauses_nil _ positional] at hstart
  obtain ⟨hclassPath, hhome⟩ := htakes.positional_ne
  refine hread.required sound_program hc ?_ ?_
  · exact read_clauses hread sound_relaxed_program hrelaxed htakes.scope hclassPath hhome hargs
      (fun before clause after heq => h.fits htakes hvalues heq) List.not_mem_nil hstart
  · intro id hid
    obtain ⟨rfl, hne⟩ := htakes.required id hid
    rwa [h.capabilities_ofClauses]

end

theorem takes_check (capabilities : List String) :
    Takes checkSpec "capabilities" capabilities false where
  scope := by decide
  positional_ne := by decide
  taken _ := ⟨⟨.text, true⟩, by decide, .inl rfl⟩
  reports hjson := by cases hjson
  required _ hid := absurd hid List.not_mem_nil

theorem takes_list (capability : String) (json : Bool) :
    Takes listSpec "capability" [capability] json where
  scope := by decide
  positional_ne := by decide
  taken _ := ⟨⟨.text, false⟩, by decide, .inr (Nat.le_refl 1)⟩
  reports _ := by decide
  required id hid := ⟨List.mem_singleton.mp hid, List.cons_ne_nil capability []⟩

theorem takes_services (json : Bool) : Takes servicesSpec "capability" [] json where
  scope := by decide
  positional_ne := by decide
  taken hne := absurd rfl hne
  reports _ := by decide
  required _ hid := absurd hid List.not_mem_nil

/-- **Command lines are read back.** Take any reader of arguments that keeps to what is documented,
and any command whose values are not empty and do not start with a dash. Write its name, and then
its capabilities, the entries of its class path, its installation and its wish for JSON in any order
that keeps those of the capabilities and of the entries, each entry and the installation in any
spelling. The arguments are read as this command. -/
theorem parse_of_writes {read : ArgumentReader} (hread : Documented read) {command : Command}
    {args : List String} (hvalues : ∀ s ∈ command.values, IsValue s) (h : Writes command args) :
    parseWith read args = .ok command := by
  cases h with
  | @check capabilities scope clauses args h hargs =>
    have htakes := takes_check capabilities
    have hall : read program ("check" :: args) = .ok (.ofClauses "check" "capabilities" clauses) :=
      read_of_says hread (by decide) htakes h hvalues hargs
    simp only [parseWith, hall, Except.bind, Command.ofMatches,
      h.scope_ofClauses htakes.positional_ne, h.capabilities_ofClauses]
    rfl
  | @list capability scope json clauses args h hargs =>
    have htakes := takes_list capability json
    have hall : read program ("list" :: args) = .ok (.ofClauses "list" "capability" clauses) :=
      read_of_says hread (by decide) htakes h hvalues hargs
    simp only [parseWith, hall, Except.bind, Command.ofMatches,
      h.scope_ofClauses htakes.positional_ne, h.capabilities_ofClauses, h.json_ofClauses]
    rfl
  | @services scope json clauses args h hargs =>
    have htakes := takes_services json
    have hall : read program ("services" :: args) =
        .ok (.ofClauses "services" "capability" clauses) :=
      read_of_says hread (by decide) htakes h hvalues hargs
    simp only [parseWith, hall, Except.bind, Command.ofMatches,
      h.scope_ofClauses htakes.positional_ne, h.json_ofClauses]
    rfl

/-- Capabilities that are split by options, one of them named like a command, and values with equals
signs in all spellings. -/
theorem parse_of_writes_split :
    let command : Command := .check ["list", "a"] ⟨[⟨"x=y"⟩, ⟨"=z"⟩, ⟨"b.jar"⟩], some ⟨"h"⟩⟩
    let args := ["check", "-c", "x=y", "list", "--class-path==z", "--home", "h", "a",
      "--class-path", "b.jar"]
    Documented readArguments ∧ (∀ s ∈ command.values, IsValue s) ∧ Writes command args ∧
      parseWith readArguments args = .ok command := by
  intro command args
  have hvalues : ∀ s ∈ command.values, IsValue s := by decide +kernel
  have hwrites : Writes command args := by
    have hsays : Says [.entry ⟨"x=y"⟩, .capability "list", .entry ⟨"=z"⟩, .home ⟨"h"⟩,
        .capability "a", .entry ⟨"b.jar"⟩] ["list", "a"]
        ⟨[⟨"x=y"⟩, ⟨"=z"⟩, ⟨"b.jar"⟩], some ⟨"h"⟩⟩ false := ⟨rfl, rfl, rfl, by decide⟩
    refine .check hsays ?_
    exact .cons (.entryShort _) <| .cons (.capability _) <| .cons (.entryAttached ⟨"=z"⟩) <|
      .cons (.homeLong _) <| .cons (.capability _) <| .cons (.entryLong _) .nil
  exact ⟨documented_readArguments, hvalues, hwrites,
    parse_of_writes documented_readArguments hvalues hwrites⟩

end ProviderDiscovery.CommandLine
