import ProviderDiscovery.CommandLine.Execute
import ProviderDiscovery.Proofs.Discovery.Account
import ProviderDiscovery.Proofs.Scope.Confined

/-!
# Nothing outside the services folders is read

Only what was located is opened, be it by a discovery, by a list or by a check. In folders and
archives that lies in their services folders (`Scope.OnFiles.inServices`), whatever identifier was
asked for. So no identifier of a capability leads out of them: a part of a file's path is a name
without a slash that is neither a dot nor two.
-/

namespace ProviderDiscovery

/-- The event **opens only** resources of a kind, if it opens any. -/
def Event.OpensOnly (E : Resource → Prop) (e : Event) : Prop :=
  ∀ r, e = .opened r → E r

/-- Locating opens nothing. -/
theorem Event.opensOnly_of_asks (E : Resource → Prop) {e : Event} (h : e.asks) : e.OpensOnly E := by
  rintro r rfl
  cases h

/-- What has been opened by a step that opens only resources of a kind. -/
theorem DoesOnly.opened_mem_eventsSince {α : Type} {E : Resource → Prop} {x : Action α}
    (hx : DoesOnly (Event.OpensOnly E) x) (w : World) (r : Resource)
    (h : .opened r ∈ (x.run w).2.eventsSince w) : E r := by
  obtain ⟨es, hworld, hes⟩ := hx w
  rw [hworld, World.eventsSince_after] at h
  exact hes _ h r rfl

namespace Report

variable {E : Resource → Prop} {s : Scope}

theorem opensOnly_listedNames (capability : CapabilityId) {r : Resource} (hr : E r) :
    DoesOnly (Event.OpensOnly E) (listedNames capability r) := by
  refine fun w => ⟨[.opened r], rfl, List.forall_mem_singleton.mpr fun opened hopened => ?_⟩
  rwa [← Event.opened.inj hopened]

/-- Collecting the candidates of resources opens only these. -/
theorem opensOnly_collect (capability : CapabilityId) {rs : List Resource} (hrs : ∀ r ∈ rs, E r)
    (found : List Candidate) : DoesOnly (Event.OpensOnly E) (collect capability rs found) := by
  induction rs generalizing found with
  | nil => exact .pure _
  | cons r rest ih =>
    obtain ⟨hr, hrest⟩ := List.forall_mem_cons.mp hrs
    refine (opensOnly_listedNames capability hr).bind fun answer => ?_
    cases answer with
    | error e => exact .pure _
    | ok names => exact ih hrest _

/-- A list opens only what is located. -/
theorem opensOnly_providers {capability : CapabilityId}
    (hE : ∀ w rs, ((s.locate capability).run.run w).1 = .ok rs → ∀ r ∈ rs, E r) :
    DoesOnly (Event.OpensOnly E) (providers s capability) := by
  have hlocate : DoesOnly (Event.OpensOnly E) (s.locate capability).run :=
    (s.doesOnly_locate_asks capability).mono fun _ => Event.opensOnly_of_asks E
  refine hlocate.bind_of_answer fun w => ?_
  cases hlocated : ((s.locate capability).run.run w).1 with
  | error cause => exact .pure _
  | ok rs => exact opensOnly_collect capability (hE w rs hlocated) []

/-- A check of a capability opens only what is located. -/
theorem opensOnly_checkCapability {capability : CapabilityId}
    (hE : ∀ w rs, ((s.locate capability).run.run w).1 = .ok rs → ∀ r ∈ rs, E r)
    (report : CheckReport) :
    DoesOnly (Event.OpensOnly E) (checkCapability s report capability) := by
  have hlocate : DoesOnly (Event.OpensOnly E) (s.locate capability).run :=
    (s.doesOnly_locate_asks capability).mono fun _ => Event.opensOnly_of_asks E
  refine hlocate.bind_of_answer fun w => ?_
  match hlocated : ((s.locate capability).run.run w).1 with
  | .error cause => exact .pure _
  | .ok [] => exact .pure _
  | .ok (r :: rest) =>
    refine .foldlM _ (fun report r' hr' => ?_) report
    refine (opensOnly_listedNames capability (hE w _ hlocated r' hr')).bind fun answer => ?_
    cases answer <;> exact .pure _

/-- A check opens only what is located for some capability. -/
theorem opensOnly_check
    (hE : ∀ id w rs, ((s.locate ⟨id⟩).run.run w).1 = .ok rs → ∀ r ∈ rs, E r)
    (given : List String) : DoesOnly (Event.OpensOnly E) (check s given) := by
  refine DoesOnly.get.bind fun w => ?_
  cases chosenCapabilities w.files s given with
  | error cause => exact .pure _
  | ok names =>
    exact (DoesOnly.foldlM names
      (fun report id _ => opensOnly_checkCapability (hE id) report) .empty).bind fun _ => .pure _

end Report

namespace CommandLine

/-- The arguments of a command that settle its class path. -/
def Command.arguments : Command → ScopeArguments
  | .check _ arguments => arguments
  | .list _ arguments _ => arguments
  | .services arguments _ => arguments

/-- The class path of a command, when the files are such. -/
def Command.scope (environment : Settings) (files : FileTree) (command : Command) : Scope :=
  (environment.merge command.arguments.classPath command.arguments.home).build files

/-- What a command runs on its class path. -/
def Command.task (scope : Scope) : Command → Action Result
  | .check given _ => runCheck scope given
  | .list capability _ json => runList scope capability json
  | .services _ json => runServices scope json

/-- A command is executed on its class path. -/
theorem run_execute (environment : Settings) (command : Command) (w : World) :
    (execute environment command).run w =
      (command.task (command.scope environment w.files)).run w := by
  have hscope : ∀ arguments : ScopeArguments, (classPath environment arguments).run w =
      ((environment.merge arguments.classPath arguments.home).build w.files, w) := fun _ => rfl
  cases command
  all_goals
    rw [execute, Action.run_bind, hscope]
    rfl

section Tasks

variable {E : Resource → Prop} {s : Scope}
  (hE : ∀ id w rs, ((s.locate ⟨id⟩).run.run w).1 = .ok rs → ∀ r ∈ rs, E r)
include hE

theorem opensOnly_runCheck (given : List String) :
    DoesOnly (Event.OpensOnly E) (runCheck s given) := by
  refine (Report.opensOnly_check hE given).bind fun answer => ?_
  cases answer with
  | error cause => exact .pure _
  | ok report => exact .pure _

theorem opensOnly_runList (capability : String) (json : Bool) :
    DoesOnly (Event.OpensOnly E) (runList s capability json) := by
  refine (Report.opensOnly_providers (hE capability)).bind fun answer => ?_
  cases answer with
  | error e => exact .pure _
  | ok found => exact .pure _

omit hE in
theorem opensOnly_runServices (json : Bool) :
    DoesOnly (Event.OpensOnly E) (runServices s json) := by
  refine DoesOnly.get.bind fun w => ?_
  cases s.serviceNames w.files with
  | error cause => exact .pure _
  | ok names => exact .pure _

/-- The task of a command opens only what is located for some capability. -/
theorem opensOnly_task (command : Command) :
    DoesOnly (Event.OpensOnly E) (command.task s) := by
  cases command with
  | check given arguments => exact opensOnly_runCheck hE given
  | list capability arguments json => exact opensOnly_runList hE capability json
  | services arguments json => exact opensOnly_runServices json

end Tasks

/-- A command opens only what is located in its class path for some capability. -/
theorem opened_of_execute (environment : Settings) (command : Command) (w : World) (r : Resource)
    (h : .opened r ∈ ((execute environment command).run w).2.eventsSince w) :
    ∃ capability, (command.scope environment w.files).InServices capability r ∧
      Path.IsPlain capability := by
  have hs : (command.scope environment w.files).OnFiles := Settings.onFiles_build _ w.files
  rw [run_execute] at h
  generalize command.scope environment w.files = s at hs h ⊢
  have hE : ∀ id w rs, ((s.locate ⟨id⟩).run.run w).1 = .ok rs →
      ∀ r ∈ rs, ∃ capability, s.InServices capability r ∧ Path.IsPlain capability :=
    fun id w rs hlocated r hr => by
      obtain ⟨hid, hin⟩ := hs.inServices hlocated
      exact ⟨id, hin r hr, Scope.isPlain_of_isQualifiedName hid⟩
  exact (opensOnly_task hE command).opened_mem_eventsSince w r h

end CommandLine

/-- **The identifier of a capability does not lead out of the services folders.** Take any scope
that is made of folders and archives, and any text as identifier. If it is no qualified name,
locating it fails with that identifier, and nothing is done. If it can be located, it is a name that
a folder can have for a file, and each resource is the file of that name in the services folder
below one of the folders, or the entry of that name in the services folder of one of the archives.
The path of such a file is that of the folder with three more names, and what is read from it stands
at the location of the folder with three more names. So whatever is read of such a resource stands
in the services folder of a folder or of an archive, or it is a folder itself, of which nothing is
read. A discovery of the capability, whatever else it is given and whatever happens meanwhile, opens
only such resources. And neither does a command of the program open anything else, whatever its
arguments are. -/
theorem Scope.confined_to_services {s : Scope} (hs : s.OnFiles) (id : String) :
    (isQualifiedName id = false → ∀ w,
      (s.locate ⟨id⟩).run.run w = (.error (.invalidIdentifier id), w)) ∧
    (∀ w rs, ((s.locate ⟨id⟩).run.run w).1 = .ok rs →
      Path.IsPlain id ∧ ∀ r ∈ rs, s.InServices id r) ∧
    (Path.IsPlain id → ∀ root : Path, let path := root.join (servicesPrefix ++ id)
      path.names = root.names ++ ["META-INF", "services", id] ∧
      path.isAbsolute = root.isAbsolute ∧
      ∀ (files : FileTree) bytes, files.read path = .ok bytes →
        ∃ location, files.follow [] (files.route root) = .ok location ∧
          files.lookup (location ++ ["META-INF", "services", id]) = some (.file bytes)) ∧
    (Path.IsPlain id → ∀ r, s.InServices id r → ∀ files bytes,
      (r.opened files = .ok bytes → s.ReadsInServices id files bytes r) ∧
        ∀ cause, r.opened files = .broken bytes cause → bytes = [] ∧ cause = .isADirectory) ∧
    (∀ (contract : Contract) (resolver : Resolver) (authority : Authority) (w : World)
        (ops : List Operation) (r : Resource),
      .opened r ∈ (Session.start (.start ⟨id⟩ contract s resolver authority) w).trace ops →
        Path.IsPlain id ∧ s.InServices id r) ∧
    ∀ (environment : Settings) (command : CommandLine.Command) (w : World) (r : Resource),
      .opened r ∈ ((CommandLine.execute environment command).run w).2.eventsSince w →
        ∃ capability, (command.scope environment w.files).InServices capability r ∧
          Path.IsPlain capability := by
  refine ⟨fun hid w => run_locate_of_not_isQualifiedName hid s w, fun w rs hlocated => ?_,
    fun hplain root => ?_, fun hplain r hr => hr.reads hplain,
    fun contract resolver authority w ops r hopened => ?_, CommandLine.opened_of_execute⟩
  · obtain ⟨hid, hin⟩ := hs.inServices hlocated
    exact ⟨isPlain_of_isQualifiedName hid, hin⟩
  · exact ⟨names_join_servicesPrefix hplain root, isAbsolute_join_servicesPrefix hplain root,
      fun files bytes => exists_lookup_of_read_service hplain⟩
  · let E (r : Resource) : Prop := Path.IsPlain id ∧ s.InServices id r
    have hE : ∀ w rs, ((s.locate ⟨id⟩).run.run w).1 = .ok rs → ∀ r ∈ rs, E r :=
      fun w rs hlocated r hr => by
        obtain ⟨hid, hin⟩ := hs.inServices hlocated
        exact ⟨isPlain_of_isQualifiedName hid, hin r hr⟩
    exact (Session.kept_start ⟨id⟩ contract s resolver authority w).opened_trace
      (Candidates.from_start E _ ⟨id⟩ s) rfl hE ops r hopened

/-- The folder `srv` is given by a path from the root, and again by one that leads out of the
working folder. The name `x.Codec` is located below both, and what is read stands in the services
folder; a way out of it is refused without looking. -/
theorem Scope.confined_to_services_oneFolder :
    let s : Scope := .classPath "app" [.directory ⟨"/srv"⟩, .directory ⟨"../srv"⟩] none
    let w : World := .fresh Settings.oneFolder ∅
    let rs : List Resource := [.ofFile ⟨"/srv/META-INF/services/x.Codec"⟩,
      .ofFile ⟨"../srv/META-INF/services/x.Codec"⟩]
    ((s.locate ⟨"x.Codec"⟩).run.run w).1 = .ok rs ∧
      Path.IsPlain "x.Codec" ∧
      (∀ r ∈ rs, s.ReadsInServices "x.Codec" w.files [0x41] r) ∧
      (s.locate ⟨"../../x"⟩).run.run w = (.error (.invalidIdentifier "../../x"), w) := by
  intro s w rs
  have hs : s.OnFiles := by
    refine .classPath _ (fun entry hentry => ?_) nofun
    rcases List.mem_pair.mp hentry with rfl | rfl <;> exact .directory _
  have hlocated : ((s.locate ⟨"x.Codec"⟩).run.run w).1 = .ok rs := by rfl
  have hopened : ∀ r ∈ rs, r.opened w.files = .ok [0x41] := by decide +kernel
  obtain ⟨-, hin, -, hreads, -⟩ := confined_to_services hs "x.Codec"
  obtain ⟨hplain, hservices⟩ := hin w rs hlocated
  obtain ⟨hrefused, -⟩ := confined_to_services hs "../../x"
  refine ⟨hlocated, hplain, fun r hr => ?_, hrefused (by decide +kernel) w⟩
  exact (hreads hplain r (hservices r hr) w.files [0x41]).1 (hopened r hr)

end ProviderDiscovery
