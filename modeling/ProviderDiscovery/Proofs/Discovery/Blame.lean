import ProviderDiscovery.Proofs.Acceptance
import ProviderDiscovery.Proofs.Authority
import ProviderDiscovery.Proofs.Configuration.Names

/-!
# What a fault is blamed on

A fault blames a party or a file for something that has happened: an authority that refused, a
factory that threw, a line that is malformed. `Authority.Denies`, `Resolver.Declines` and
`Resource.Blames` say what that is for each fault, in terms of the events in the course of which it
arose and of the files. A call of a party is given with the number of its calls before, so that what
it did is known.
-/

namespace ProviderDiscovery

/-! ### Calls -/

/-- Among events that come in, a party is **called** in a certain way when it has had a number of
calls before. -/
def World.Calls (w : World) (es : List Event) (h : Handle) (e : Event) (n : Nat) : Prop :=
  ∃ front back, es = front ++ e :: back ∧ (w.after front).callCount h = n

namespace World.Calls

variable {w : World} {front es : List Event} {h : Handle} {e : Event} {n : Nat}

/-- Behind earlier events the call is still there. -/
theorem shift (hcalls : (w.after front).Calls es h e n) : w.Calls (front ++ es) h e n := by
  obtain ⟨before, behind, rfl, hn⟩ := hcalls
  rw [World.after_after] at hn
  exact ⟨front ++ before, behind, by simp, hn⟩

/-- So it is in front of later ones. -/
theorem append (hcalls : w.Calls es h e n) (more : List Event) : w.Calls (es ++ more) h e n := by
  obtain ⟨before, behind, rfl, hn⟩ := hcalls
  exact ⟨before, behind ++ more, by simp, hn⟩

end World.Calls

/-! ### Denials -/

namespace Authority

/-- An authority **denies** a step for a reason: it refused with that reason, or it did not ask for
the step, and the reason says so. -/
inductive Denies (w : World) (es : List Event) : Authority → String → Prop where
  | refused {token : Token} {party : AuthorityParty} {n : Nat} {reason : String}
      (hentered : w.Calls es party.handle (.entered party.handle token) n)
      (hrefusal : (party.entrance n).refusal = some reason) : Denies w es (.held token party) reason
  | notRun {token : Token} {party : AuthorityParty} {n : Nat}
      (hentered : w.Calls es party.handle (.entered party.handle token) n)
      (hruns : (party.entrance n).runs = 0) (hrefusal : (party.entrance n).refusal = none) :
      Denies w es (.held token party) ("context for " ++ token.label ++ " did not run the action")

variable {a : Authority} {w : World}

theorem Denies.shift {front es : List Event} {reason : String}
    (h : a.Denies (w.after front) es reason) : a.Denies w (front ++ es) reason := by
  cases h with
  | refused hentered hrefusal => exact .refused hentered.shift hrefusal
  | notRun hentered hruns hrefusal => exact .notRun hentered.shift hruns hrefusal

theorem Denies.append {es : List Event} {reason : String} (h : a.Denies w es reason)
    (more : List Event) : a.Denies w (es ++ more) reason := by
  cases h with
  | refused hentered hrefusal => exact .refused (hentered.append more) hrefusal
  | notRun hentered hruns hrefusal => exact .notRun (hentered.append more) hruns hrefusal

/-- An authority that is entered is called. -/
theorem calls_entry (token : Token) (party : AuthorityParty) (w : World) :
    w.Calls [.entered party.handle token] party.handle (.entered party.handle token)
      (w.callCount party.handle) :=
  ⟨[], [], rfl, rfl⟩

/-- A step that is not asked for is denied. -/
theorem denies_of_runs_eq_zero (hruns : (a.entranceIn w).runs = 0) :
    a.Denies w a.entry (a.denial (a.entranceIn w)) := by
  cases a with
  | unrestricted => cases hruns
  | held token party =>
    have hcalls := calls_entry token party w
    rw [denial]
    cases hrefusal : (party.entrance (w.callCount party.handle)).refusal with
    | some reason =>
      rw [entranceIn, hrefusal]
      exact .refused hcalls hrefusal
    | none =>
      rw [entranceIn, hrefusal]
      exact .notRun hcalls hruns hrefusal

/-- A step whose answer is withheld is denied. -/
theorem denies_of_refusal {reason : String} (hrefusal : (a.entranceIn w).refusal = some reason) :
    a.Denies w a.entry reason := by
  cases a with
  | unrestricted => cases hrefusal
  | held token party => exact .refused (calls_entry token party w) hrefusal

/-- What is let through of an answer that can be a failure: the failure, if it is no denial. -/
theorem release_eq_error {α : Type} {capability : CapabilityId} {answer : Except DiscoveryError α}
    {e : DiscoveryError} (h : (a.release w capability answer).bind id = .error e) :
    answer = .error e ∨
      ∃ reason, e = ⟨capability, .privilegeDenied reason⟩ ∧ a.Denies w a.entry reason := by
  rw [release] at h
  cases hrefusal : (a.entranceIn w).refusal with
  | some reason =>
    rw [hrefusal] at h
    exact .inr ⟨reason, (Except.error.inj h).symm, denies_of_refusal hrefusal⟩
  | none =>
    rw [hrefusal] at h
    exact .inl h

end Authority

/-! ### Names that are not accepted -/

namespace Resolver

/-- A resolver **finds** a type for a name, or none. -/
inductive Finds (w : World) (es : List Event) (name : String) :
    Resolver → Option ProviderType → Prop where
  | nothing : Finds w es name .nothing none
  | registry (hasked : .resolved name ∈ es) :
      Finds w es name .registry (w.registry.resolve name)
  | party {p : ResolverParty} {n : Nat}
      (hasked : w.Calls es p.handle (.consulted p.handle name) n) :
      Finds w es name (.party p) (p.answer n name)

/-- A name is **declined**: there is no type for it, its type does not implement the contract, or
the factory of the type fails or throws. -/
inductive Declines (r : Resolver) (contract : Contract) (w : World) (es : List Event)
    (name : String) : DiscoveryFault → Prop where
  | notFound (hfinds : r.Finds w es name none) :
      Declines r contract w es name (.providerNotFound name)
  | notAssignable {type : ProviderType} (hfinds : r.Finds w es name (some type))
      (hfactory : type.factory? contract = none) :
      Declines r contract w es name (.providerNotAssignable name)
  | failed {type : ProviderType} {factory : Factory} {n : Nat} {cause : String}
      (hfinds : r.Finds w es name (some type)) (hfactory : type.factory? contract = some factory)
      (hcalled : w.Calls es factory.handle (.constructed factory.handle name factory.value) n)
      (houtcome : factory.outcome n = .failed cause) :
      Declines r contract w es name (.instantiationFailed name cause)
  | threw {type : ProviderType} {factory : Factory} {n : Nat} {text : String}
      (hfinds : r.Finds w es name (some type)) (hfactory : type.factory? contract = some factory)
      (hcalled : w.Calls es factory.handle (.constructed factory.handle name factory.value) n)
      (houtcome : factory.outcome n = .threw (.text text)) :
      Declines r contract w es name (.instantiationFailed name text)
  | threwOther {type : ProviderType} {factory : Factory} {n : Nat}
      (hfinds : r.Finds w es name (some type)) (hfactory : type.factory? contract = some factory)
      (hcalled : w.Calls es factory.handle (.constructed factory.handle name factory.value) n)
      (houtcome : factory.outcome n = .threw .other) :
      Declines r contract w es name (.instantiationFailed name "provider constructor panicked")

variable {r : Resolver} {w : World} {front es : List Event} {name : String}

theorem Finds.shift {type? : Option ProviderType} (h : r.Finds (w.after front) es name type?) :
    r.Finds w (front ++ es) name type? := by
  cases h with
  | nothing => exact .nothing
  | registry hasked => exact .registry (List.mem_append_right _ hasked)
  | party hasked => exact .party hasked.shift

theorem Finds.append {type? : Option ProviderType} (h : r.Finds w es name type?)
    (more : List Event) : r.Finds w (es ++ more) name type? := by
  cases h with
  | nothing => exact .nothing
  | registry hasked => exact .registry (List.mem_append_left _ hasked)
  | party hasked => exact .party (hasked.append more)

theorem Declines.shift {contract : Contract} {fault : DiscoveryFault}
    (h : r.Declines contract (w.after front) es name fault) :
    r.Declines contract w (front ++ es) name fault := by
  cases h with
  | notFound hfinds => exact .notFound hfinds.shift
  | notAssignable hfinds hfactory => exact .notAssignable hfinds.shift hfactory
  | failed hfinds hfactory hcalled houtcome =>
    exact .failed hfinds.shift hfactory hcalled.shift houtcome
  | threw hfinds hfactory hcalled houtcome =>
    exact .threw hfinds.shift hfactory hcalled.shift houtcome
  | threwOther hfinds hfactory hcalled houtcome =>
    exact .threwOther hfinds.shift hfactory hcalled.shift houtcome

/-- A resolver that is asked finds what it answers. -/
theorem exists_run_resolve (r : Resolver) (name : String) (w : World) :
    ∃ es, (r.resolve name).run w = (((r.resolve name).run w).1, w.after es) ∧
      r.Finds w es name ((r.resolve name).run w).1 := by
  cases r with
  | nothing => exact ⟨[], rfl, .nothing⟩
  | registry => exact ⟨[.resolved name], rfl, .registry (List.mem_singleton_self _)⟩
  | party p => exact ⟨[.consulted p.handle name], rfl, .party ⟨[], [], rfl, rfl⟩⟩

end Resolver

/-- A name that is not accepted has been declined. -/
theorem exists_run_accept (r : Resolver) (contract : Contract) (capability : CapabilityId)
    (name : String) (c : Instances Provider) (w : World) :
    ∃ answer c' es, (accept r contract capability name c).run w = ((answer, c'), w.after es) ∧
      ∀ e, answer = .error e → e.capability = capability ∧
        r.Declines contract w es name e.fault := by
  obtain ⟨es, hresolve, hfinds⟩ := r.exists_run_resolve name w
  generalize ((r.resolve name).run w).1 = type? at hresolve hfinds
  simp only [accept, Action.run_bind, hresolve]
  cases type? with
  | none =>
    refine ⟨_, c, es, rfl, fun e he => ?_⟩
    obtain rfl := Except.error.inj he
    exact ⟨rfl, .notFound hfinds⟩
  | some type =>
    cases hfactory : type.factory? contract with
    | none =>
      simp only [hfactory]
      refine ⟨_, c, es, rfl, fun e he => ?_⟩
      obtain rfl := Except.error.inj he
      exact ⟨rfl, .notAssignable hfinds hfactory⟩
    | some factory =>
      let call : Event := .constructed factory.handle name factory.value
      have hfinds' : r.Finds w (es ++ [call]) name (some type) := hfinds.append [call]
      have hcalled : w.Calls (es ++ [call]) factory.handle call
          ((w.after es).callCount factory.handle) := ⟨es, [], rfl, rfl⟩
      have hcall := factory.run_call name (w.after es)
      simp only [hfactory, Action.run_bind, hcall]
      cases houtcome : factory.outcome ((w.after es).callCount factory.handle) with
      | made =>
        let provider : Provider := ⟨factory.value, (w.after es).constructed.length + 1⟩
        refine ⟨.ok (c.insert name provider).1, (c.insert name provider).2,
          es ++ [call, .made name provider], ?_, by simp⟩
        rw [← World.after_after]
        rfl
      | failed cause =>
        refine ⟨.error ⟨capability, .instantiationFailed name cause⟩, c, es ++ [call], ?_,
          fun e he => ?_⟩
        · rw [← World.after_after]
          rfl
        · obtain rfl := Except.error.inj he
          exact ⟨rfl, .failed hfinds' hfactory hcalled houtcome⟩
      | threw thrown =>
        refine ⟨.error ⟨capability, .instantiationFailed name thrown.message⟩, c, es ++ [call], ?_,
          fun e he => ?_⟩
        · rw [← World.after_after]
          rfl
        · obtain rfl := Except.error.inj he
          cases thrown with
          | text message => exact ⟨rfl, .threw hfinds' hfactory hcalled houtcome⟩
          | other => exact ⟨rfl, .threwOther hfinds' hfactory hcalled houtcome⟩

/-! ### Resources without names -/

namespace Resource

/-- A resource is **to blame** for a fault: it cannot be opened, or a line that only well-formed
lines precede is malformed or is not UTF-8, or reading it breaks off behind well-formed lines. -/
inductive Blames (files : FileTree) (r : Resource) : DiscoveryFault → Prop where
  | unopened {cause : ReadFault} (hopened : r.opened files = .error cause) :
      Blames files r (.unreadable r.id cause)
  | undecodable {line : List UInt8} {earlier later : List (List UInt8)}
      (hlines : (r.opened files).lines = earlier ++ line :: later)
      (hearlier : ∃ names, Configuration.Lists earlier names)
      (hline : Text.Utf8.decode line = none) : Blames files r (.unreadable r.id .invalidUtf8)
  | malformed {line : List UInt8} {earlier later : List (List UInt8)} {text : List Char}
      {fault : LineFault} (hlines : (r.opened files).lines = earlier ++ line :: later)
      (hearlier : ∃ names, Configuration.Lists earlier names)
      (hline : Text.Utf8.decode line = some text) (hfault : Line.read text = .error fault) :
      Blames files r (.malformed r.id (earlier.length + 1) fault)
  | brokenOff {bytes : List UInt8} {cause : ReadFault}
      (hopened : r.opened files = .broken bytes cause)
      (hlines : ∃ names, Configuration.Lists (Text.endedLines bytes) names) :
      Blames files r (.unreadable r.id cause)

/-- Lines whose names cannot be listed are to blame for it. -/
theorem blames_of_namesInLines {r : Resource} {capability : CapabilityId} {files : FileTree}
    {e : DiscoveryError} (h : namesInLines capability r.id (r.opened files).lines = .error e) :
    e.capability = capability ∧ r.Blames files e.fault := by
  obtain ⟨fault, hnames, rfl⟩ := namesInLines_eq_error_iff.mp h
  obtain ⟨earlier, line, later, hlines, hearlier, hblames⟩ :=
    Configuration.readLines_eq_error_iff.mp hnames
  refine ⟨rfl, ?_⟩
  rw [Nat.add_comm] at hblames
  cases hblames with
  | undecodable hbytes =>
    rw [← Text.Utf8.isSome_decode_iff, Bool.not_eq_true, Option.isSome_eq_false_iff,
      Option.isNone_iff_eq_none] at hbytes
    exact .undecodable hlines hearlier hbytes
  | malformed htext hform hfault =>
    exact .malformed hlines hearlier (Text.Utf8.decode_eq_some_iff.mpr htext)
      (Line.read_eq_error_iff.mpr ⟨hform, hfault⟩)

/-- A resource whose names cannot be listed is to blame. -/
theorem blames_of_namesIn {r : Resource} {capability : CapabilityId} {files : FileTree}
    {e : DiscoveryError} (h : r.namesIn capability files = .error e) :
    e.capability = capability ∧ r.Blames files e.fault := by
  rw [namesIn, namesRead] at h
  cases hlines : namesInLines capability r.id (r.opened files).lines with
  | error e' =>
    rw [hlines] at h
    obtain rfl := Except.error.inj h
    exact blames_of_namesInLines hlines
  | ok names =>
    rw [hlines] at h
    rw [namesInLines_eq_ok_iff, Configuration.readLines_eq_ok_iff] at hlines
    cases hopened : r.opened files with
    | error cause =>
      rw [hopened] at h
      obtain rfl := Except.error.inj h
      exact ⟨rfl, .unopened hopened⟩
    | ok bytes =>
      rw [hopened] at h
      cases h
    | broken bytes cause =>
      rw [hopened] at h hlines
      obtain rfl := Except.error.inj h
      exact ⟨rfl, .brokenOff hopened ⟨names, hlines⟩⟩

end Resource

end ProviderDiscovery
