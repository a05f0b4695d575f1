import ProviderDiscovery.CommandLine.Declaration
import Mathlib.Data.List.Nodup

/-!
# What is documented of a reader of arguments

How arguments are read by a declaration is up to the reader, which is given from outside. Of the
reader this much is relied on (`Documented`): each law says what one argument more, at the end of a
command line that is read already, adds to what was given. The laws speak of declarations in which
nothing is declared twice (`Sound`), the only ones that a reader has to accept.
-/

namespace ProviderDiscovery.CommandLine

/-- A text that can stand as a **value**: it is not empty and does not start with a dash. -/
def IsValue (s : String) : Prop := s ≠ "" ∧ s.toList.head? ≠ some '-'

instance (s : String) : Decidable (IsValue s) := inferInstanceAs (Decidable (_ ∧ _))

/-! ### Sound declarations -/

/-- A declared command is **sound** when no name in it is declared twice. Every command has the
options `--help` and `-h` besides those that it declares. -/
structure CommandSpec.Sound (c : CommandSpec) : Prop where
  name : IsValue c.name ∧ c.name ≠ "help"
  ids : (c.arguments.map (·.id)).Nodup
  longs : ("help" :: c.arguments.filterMap (·.long?)).Nodup
  shorts : ('h' :: c.arguments.filterMap (·.short?)).Nodup
  -- An option has to look like one: its names are not mistaken for dashes or for a value.
  longs_plain : ∀ long ∈ c.arguments.filterMap (·.long?), long ≠ "" ∧ '=' ∉ long.toList
  shorts_plain : '-' ∉ c.arguments.filterMap (·.short?)
  positional : (c.arguments.filter (·.isPositional)).length ≤ 1

instance (c : CommandSpec) : Decidable c.Sound :=
  decidable_of_iff
    ((IsValue c.name ∧ c.name ≠ "help") ∧ (c.arguments.map (·.id)).Nodup ∧
      ("help" :: c.arguments.filterMap (·.long?)).Nodup ∧
      ('h' :: c.arguments.filterMap (·.short?)).Nodup ∧
      (∀ long ∈ c.arguments.filterMap (·.long?), long ≠ "" ∧ '=' ∉ long.toList) ∧
      '-' ∉ c.arguments.filterMap (·.short?) ∧
      (c.arguments.filter (·.isPositional)).length ≤ 1)
    ⟨fun ⟨hname, hids, hlongs, hshorts, hlong, hshort, hpositional⟩ =>
        ⟨hname, hids, hlongs, hshorts, hlong, hshort, hpositional⟩,
      fun h => ⟨h.name, h.ids, h.longs, h.shorts, h.longs_plain, h.shorts_plain, h.positional⟩⟩

/-- Declared commands are **sound** when each of them is, and no two have one name. -/
structure Sound (commands : List CommandSpec) : Prop where
  names : (commands.map (·.name)).Nodup
  each : ∀ c ∈ commands, c.Sound

instance (commands : List CommandSpec) : Decidable (Sound commands) :=
  decidable_of_iff ((commands.map (·.name)).Nodup ∧ ∀ c ∈ commands, c.Sound)
    ⟨fun ⟨hnames, heach⟩ => ⟨hnames, heach⟩, fun h => ⟨h.names, h.each⟩⟩

/-- The command with nothing that has to be given. -/
def CommandSpec.relaxed (c : CommandSpec) : CommandSpec := { c with required := [] }

/-! ### The laws -/

/-- The **spellings** of an option with a value: the value follows the long or the short name, or it
is attached to the long name. -/
inductive SpelledOption (long : String) (short : Option Char) (value : String) :
    List String → Prop where
  | long : SpelledOption long short value ["--" ++ long, value]
  | attached : SpelledOption long short value ["--" ++ long ++ "=" ++ value]
  | short {s : Char} (h : short = some s) :
      SpelledOption long short value [String.ofList ['-', s], value]

/-- What is **documented** of a reader of arguments. -/
structure Documented (read : ArgumentReader) : Prop where
  /-- A command to which nothing has to be given can be named alone. -/
  command {commands : List CommandSpec} {c : CommandSpec} (hsound : Sound commands)
    (hc : c ∈ commands) (hrequired : c.required = []) :
    read commands [c.name] = .ok (.bare c.name)
  /-- An option takes one value. Options may stand anywhere among the arguments. One that repeats
  keeps all its values in their order, another one may be given once. -/
  option {commands : List CommandSpec} {c : CommandSpec} {args part : List String} {m : Matches}
    {id long value : String} {short : Option Char} {spec : ValueSpec} (hsound : Sound commands)
    (hc : c ∈ commands) (hoption : ⟨id, .option long short spec⟩ ∈ c.arguments)
    (hread : read commands (c.name :: args) = .ok m) (hdash : "--" ∉ args)
    (hpart : SpelledOption long short value part) (hvalue : IsValue value)
    (honce : spec.repeats ∨ m.values id = []) :
    read commands (c.name :: (args ++ part)) = .ok (m.add id value)
  /-- An option without a value is set by its name, once. -/
  flag {commands : List CommandSpec} {c : CommandSpec} {args : List String} {m : Matches}
    {id long : String} (hsound : Sound commands) (hc : c ∈ commands)
    (hflag : ⟨id, .flag long⟩ ∈ c.arguments)
    (hread : read commands (c.name :: args) = .ok m) (hdash : "--" ∉ args)
    (honce : m.flags id = false) :
    read commands (c.name :: (args ++ ["--" ++ long])) = .ok (m.set id)
  /-- A value that no option asks for is one of the argument that is no option. Options may stand
  between the values of one that repeats. -/
  positional {commands : List CommandSpec} {c : CommandSpec} {args : List String} {m : Matches}
    {id value : String} {spec : ValueSpec} (hsound : Sound commands) (hc : c ∈ commands)
    (hpositional : ⟨id, .positional spec⟩ ∈ c.arguments)
    (hread : read commands (c.name :: args) = .ok m) (hdash : "--" ∉ args)
    (hvalue : IsValue value) (honce : spec.repeats ∨ m.values id = []) :
    read commands (c.name :: (args ++ [value])) = .ok (m.add id value)
  /-- That something has to be given changes nothing if it is given. -/
  required {commands : List CommandSpec} {c : CommandSpec} {args : List String} {m : Matches}
    (hsound : Sound commands) (hc : c ∈ commands)
    (hread : read (commands.map (·.relaxed)) (c.name :: args) = .ok m)
    (hgiven : ∀ id ∈ c.required, m.values id ≠ []) :
    read commands (c.name :: args) = .ok m

end ProviderDiscovery.CommandLine
