import Habeny.Requests.Serve

/-!
# The licence gate

Where the licensing state allows no new work, every program that starts new work ends at its
own check, and the programs that view and manage containers go on as they are.  One program has
no check: an upload to a group reaches every container of the group that exists.
-/

namespace Habeny.Licensing

open Habeny.Lib Habeny.Auth Habeny.Tenancy Habeny.Http Habeny.Requests

variable {s : Setup} {user : Option User}

/-! ## Programs that ask for the licence -/

lemma requireLicense_of_not_allowed (h : (statusInfo s.license).allowsNewWork = false)
    (adding existing : ℕ) : requireLicense s adding existing
      = Prog.fail (.http 402 (statusInfo s.license).message) := by
  rw [requireLicense, require_of_not_allowed h]
  rfl

/-- What stands behind a check for the licence does not run. -/
lemma licensed_quiet {α : Type} {k : Unit → Handler α}
    (h : (statusInfo s.license).allowsNewWork = false) :
    Quiet (fun _ => True) (requireLicense s 0 0 >>= k) := by
  rw [requireLicense_of_not_allowed h]
  exact Quiet.fail trivial

/-- A deploy request is refused before it has done anything. -/
lemma deploy_refused (env : Deploy.Env) (h : (statusInfo env.license).allowsNewWork = false)
    (req : Deploy.Request) (outcomes : Deploy.Outcomes req) (store : Agents.Store) :
    Deploy.deployAgents env user req outcomes store
      = (.error (.http 402 (statusInfo env.license).message), store) := by
  have hsettle : Deploy.settle env req = .error (.http 402 (statusInfo env.license).message) := by
    rw [Deploy.settle, require_of_not_allowed h]
    rfl
  rw [Deploy.deployAgents, hsettle]

lemma deployAgents_quiet (h : (statusInfo s.license).allowsNewWork = false)
    (req : Deploy.Request) : Quiet (fun _ => True) (deployAgents s user req) := by
  refine Quiet.bind Quiet.look fun m => ?_
  rw [deploy_refused (s.env m) h]
  exact Quiet.bind (Quiet.take _) fun _ => Quiet.fail trivial

/-- The schedules of a group are made one by one, each with its own check. -/
lemma scheduleLogsToGroup_quiet (h : (statusInfo s.license).allowsNewWork = false) (group : Text)
    (req : LogScheduleRequest) :
    Quiet (fun _ => True) (scheduleLogsToGroup s user group req) := by
  refine onGroup_quiet trivial fun _ members => ?_
  exact Quiet.bind (Quiet.forEach (fun _ => licensed_quiet h) members) fun _ => Quiet.ret _

/-! ## The endpoints -/

lemma withRoot_quiet {err : Refusal → Prop} {p : Handler Answer} (hlxc : err needsLxc)
    (hp : Quiet err p) : Quiet err (withRoot s p) := by
  refine Quiet.bind ?_ fun _ => hp
  unfold checkRoot
  split
  · exact Quiet.ret ()
  · exact Quiet.fail hlxc

/-- The endpoints that view, start, stop and delete containers. -/
def managing : List Endpoint :=
  [.listAgents, .getAgentsStats, .getAgent, .startAgent, .stopAgent, .deleteAgent,
    .bulkAgentOperation, .bulkGroupOperation]

/-- They are quiet, and not refused for the licence. -/
lemma handle_managing_quiet {endpoint : Endpoint} (h : endpoint ∈ managing) (params : List Text)
    (input : Input) : Quiet NotLicence (handle s user endpoint params input) := by
  have hlxc : NotLicence needsLxc := notLicence_http (by decide)
  have hinput : Quiet NotLicence (unprocessable : Handler Answer) :=
    Quiet.fail (notLicence_http (by decide))
  simp only [managing, List.mem_cons, List.not_mem_nil, or_false] at h
  rcases h with rfl | rfl | rfl | rfl | rfl | rfl | rfl | rfl
  · cases input <;> first | exact listAgents_quiet _ | exact hinput
  · exact getAgentsStats_quiet
  · exact getAgent_quiet _
  · exact withRoot_quiet hlxc (startAgent_quiet _)
  · exact withRoot_quiet hlxc (stopAgent_quiet _)
  · exact withRoot_quiet hlxc (deleteAgent_quiet _)
  · refine withRoot_quiet hlxc ?_
    cases input <;> first | exact bulkAgentOperation_quiet _ _ | exact hinput
  · exact bulkGroupOperation_quiet _ _

/-- They do the same under every licence. -/
lemma handle_managing_license {endpoint : Endpoint} (h : endpoint ∈ managing) (params : List Text)
    (input : Input) (license : Server) :
    handle { s with license := license } user endpoint params input
      = handle s user endpoint params input := by
  simp only [managing, List.mem_cons, List.not_mem_nil, or_false] at h
  rcases h with rfl | rfl | rfl | rfl | rfl | rfl | rfl | rfl <;> rfl

/-- Every endpoint but one is quiet where no new work is allowed. -/
lemma handle_quiet (h : (statusInfo s.license).allowsNewWork = false) {endpoint : Endpoint}
    (hne : endpoint ≠ .uploadLogsToGroup) (params : List Text) (input : Input) :
    Quiet (fun _ => True) (handle s user endpoint params input) := by
  by_cases hmanaging : endpoint ∈ managing
  · exact (handle_managing_quiet hmanaging params input).mono fun _ _ => trivial
  · unfold handle
    dsimp only
    split
    any_goals first | exact absurd (by decide) hmanaging | skip
    -- the endpoints of new work, and the others
    · refine withRoot_quiet trivial ?_
      split
      · exact deployAgents_quiet h _
      · exact Quiet.fail trivial
    · split
      · exact licensed_quiet h
      · exact Quiet.fail trivial
    · split
      · exact licensed_quiet h
      · exact Quiet.fail trivial
    · exact absurd rfl hne
    · split
      · exact scheduleLogsToGroup_quiet h _ _
      · exact Quiet.fail trivial
    · split
      · exact licensed_quiet h
      · exact Quiet.fail trivial
    · split
      · exact licensed_quiet h
      · exact Quiet.fail trivial
    · split
      · exact licensed_quiet h
      · exact Quiet.fail trivial
    · split
      · exact licensed_quiet h
      · exact Quiet.fail trivial
    · exact Quiet.ofExcept fun _ _ => trivial

/-! ## The upload to a group -/

/-- A container of a group that exists gets its upload, and the next one has its turn. -/
lemma uploadToMember_apply (existing : List Text) (name : Text) (m : Machine) :
    ∃ item, uploadToMember s existing name m
      = ⟨.ok item, if name ∈ existing then [.logUpload name] else [], m⟩ := by
  by_cases hmem : name ∈ existing
  · rw [uploadToMember, if_neg (not_not.mpr hmem), if_pos hmem, Prog.bind_apply]
    cases hattach : s.attach name with
    | ok _ => exact ⟨⟨name, true, none⟩, by simp [performLogUpload, Prog.bind_apply, Prog.andThen,
        Prog.emit, Prog.ret, hattach]⟩
    | error stderr => exact ⟨⟨name, false, some stderr⟩, by simp [performLogUpload,
        Prog.bind_apply, Prog.andThen, Prog.emit, Prog.ret, hattach]⟩
  · rw [uploadToMember, if_pos hmem, if_neg hmem]
    exact ⟨_, rfl⟩

/-- The uploads to a list are those to its containers that exist. -/
lemma uploads_apply (existing members : List Text) (m : Machine) :
    ∃ items, Prog.forEach (uploadToMember s existing) members m
      = ⟨.ok items, (members.filter fun n => decide (n ∈ existing)).map .logUpload, m⟩ := by
  induction members with
  | nil => exact ⟨[], rfl⟩
  | cons name members ih =>
    obtain ⟨item, hitem⟩ := uploadToMember_apply (s := s) existing name m
    obtain ⟨items, hitems⟩ := ih
    refine ⟨item :: items, ?_⟩
    rw [Prog.forEach, Prog.bind_apply, Prog.andThen, hitem]
    simp only [Prog.bind_apply, Prog.andThen, hitems, Prog.ret, List.append_nil]
    by_cases hmem : name ∈ existing
    · simp [hmem]
    · simp [hmem]

/-- The containers that an upload to a group reaches. -/
def uploadTargets (user : Option User) (group : Text) (m : Machine) : List Text :=
  if m.store.groups group then
    (visible m.store.owners user (agentsInGroup m group)).filter fun n =>
      decide (n ∈ m.containers)
  else []

/-- **What an upload to a group does**: it uploads to every container of the group that the user
can see and that exists, whatever the licence says. -/
lemma uploadLogsToGroup_events (group : Text) (m : Machine) :
    (uploadLogsToGroup s user group m).events
      = (uploadTargets user group m).map .logUpload := by
  have hlook : (uploadLogsToGroup s user group m).events
      = ((if !m.store.groups group then Prog.fail groupNotFound
          else if (visible m.store.owners user (agentsInGroup m group)).isEmpty then
            Prog.ret emptyGroup
          else Prog.forEach (uploadToMember s m.containers)
              (visible m.store.owners user (agentsInGroup m group)) >>= fun results =>
            Prog.ret ⟨true, "Logs uploaded to group".toList, none, .results results⟩ :
          Handler Answer) m).events := rfl
  rw [hlook, uploadTargets]
  cases hgroup : m.store.groups group with
  | false => rfl
  | true =>
    obtain ⟨items, hitems⟩ := uploads_apply (s := s) m.containers
      (visible m.store.owners user (agentsInGroup m group)) m
    cases hmembers : (visible m.store.owners user (agentsInGroup m group)).isEmpty with
    | true => simp [Prog.ret, List.isEmpty_iff.mp hmembers]
    | false => simp [Prog.bind_apply, Prog.andThen, hitems, Prog.ret]

lemma uploadLogsToGroup_starts_iff (group : Text) (m : Machine) :
    (∀ d ∈ (uploadLogsToGroup s user group m).events, d.isNewWork = false)
      ↔ uploadTargets user group m = [] := by
  rw [uploadLogsToGroup_events, List.forall_mem_map]
  cases uploadTargets user group m with
  | nil => simp
  | cons n ns =>
    refine iff_of_false (fun hall => ?_) (List.cons_ne_nil n ns)
    exact absurd (hall n List.mem_cons_self) (by simp [Deed.isNewWork])

/-! ## The gate -/

/-- What the licence gate promises of a request: it starts no new work; and if it views, starts,
stops or deletes containers it ends as it would under any licence, and never with a refusal for
the licence. -/
def Gated (s : Setup) (down : Bool) (req : ApiRequest) (m : Machine) : Prop :=
  (∀ d ∈ (respond s down req m).events, d.isNewWork = false) ∧
    ∀ e params, findRoute req.conn = some (e, params) → e.endpoint ∈ managing →
      (∀ license, respond { s with license := license } down req m = respond s down req m) ∧
        ∀ detail, (respond s down req m).result ≠ .error (.http 402 detail)

/-- A request that is served as an upload to a group of which some container exists that its
user can see. -/
def UploadsToGroup (down : Bool) (req : ApiRequest) (m : Machine) : Prop :=
  ∃ e params upload, serve down req.conn req.user = some (e, params) ∧
    e.endpoint = .uploadLogsToGroup ∧ req.input = .logUpload upload ∧
    uploadTargets req.user (params.headD []) m ≠ []

/-- The requests that manage containers are never refused for the licence. -/
lemma managing_unaffected {down : Bool} {req : ApiRequest} {e : Entry} {params : List Text}
    (hroute : findRoute req.conn = some (e, params)) (hmanaging : e.endpoint ∈ managing)
    (m : Machine) :
    (∀ license, respond { s with license := license } down req m = respond s down req m) ∧
      ∀ detail, (respond s down req m).result ≠ .error (.http 402 detail) := by
  cases hserve : serve down req.conn req.user with
  | none =>
    obtain ⟨refusal, hrefusal, hrespond⟩ := respond_of_not_served hserve
    refine ⟨fun license => by rw [hrespond, hrespond], fun detail hresult => ?_⟩
    rw [hrespond] at hresult
    exact hrefusal detail (Except.error.inj hresult)
  | some found =>
    obtain ⟨e', params'⟩ := found
    obtain ⟨rfl, rfl⟩ := Prod.mk.inj (Option.some.inj
      ((serve_eq_some.mp hserve).1.symm.trans hroute))
    refine ⟨fun license => ?_, fun detail hresult => ?_⟩
    · rw [respond_of_serve hserve, respond_of_serve hserve, handle_managing_license hmanaging]
    · rw [respond_of_serve hserve] at hresult
      exact ((handle_managing_quiet hmanaging _ _).spec m).2 _ hresult detail rfl

/-- A request that is served as an upload to a group starts no new work exactly when there is
nothing to upload to. -/
lemma starts_iff_of_upload {down : Bool} {req : ApiRequest} {e : Entry} {params : List Text}
    (hserve : serve down req.conn req.user = some (e, params))
    (hupload : e.endpoint = .uploadLogsToGroup) (m : Machine) :
    (∀ d ∈ (handle s req.user e.endpoint params req.input m).events, d.isNewWork = false)
      ↔ ¬UploadsToGroup down req m := by
  have hiff : UploadsToGroup down req m ↔ ∃ upload, req.input = .logUpload upload ∧
      uploadTargets req.user (params.headD []) m ≠ [] := by
    constructor
    · rintro ⟨e', params', upload, hserve', -, hinput, htargets⟩
      obtain ⟨rfl, rfl⟩ := Prod.mk.inj (Option.some.inj (hserve.symm.trans hserve'))
      exact ⟨upload, hinput, htargets⟩
    · rintro ⟨upload, hinput, htargets⟩
      exact ⟨e, params, upload, hserve, hupload, hinput, htargets⟩
  rw [hiff, hupload]
  cases hinput : req.input with
  | logUpload upload =>
    have hhandle : handle s req.user .uploadLogsToGroup params (.logUpload upload)
        = uploadLogsToGroup s req.user (params.headD []) := rfl
    rw [hhandle, uploadLogsToGroup_starts_iff]
    simp
  | _ =>
    -- what cannot be read starts nothing
    refine iff_of_true ?_ (by simp)
    exact fun d hd => absurd hd List.not_mem_nil

/-- **Where no new work is allowed, every request is stopped at the licence gate but an upload to
a group of which a container exists that the user can see.** -/
theorem gated_iff (s : Setup) (down : Bool) (req : ApiRequest) (m : Machine)
    (h : (statusInfo s.license).allowsNewWork = false) :
    Gated s down req m ↔ ¬UploadsToGroup down req m := by
  have hmanaging : ∀ e params, findRoute req.conn = some (e, params) → e.endpoint ∈ managing →
      (∀ license, respond { s with license := license } down req m = respond s down req m) ∧
        ∀ detail, (respond s down req m).result ≠ .error (.http 402 detail) :=
    fun _ _ hroute hmem => managing_unaffected hroute hmem m
  rw [Gated, and_iff_left hmanaging]
  cases hserve : serve down req.conn req.user with
  | none =>
    obtain ⟨refusal, -, hrespond⟩ := respond_of_not_served hserve
    rw [hrespond]
    simp [Prog.fail, UploadsToGroup, hserve]
  | some found =>
    obtain ⟨e, params⟩ := found
    rw [respond_of_serve hserve]
    by_cases hupload : e.endpoint = .uploadLogsToGroup
    · exact starts_iff_of_upload hserve hupload m
    · have hnot : ¬UploadsToGroup down req m := by
        rintro ⟨e', params', upload, hserve', hendpoint, -⟩
        obtain ⟨rfl, -⟩ := Prod.mk.inj (Option.some.inj (hserve.symm.trans hserve'))
        exact hupload hendpoint
      exact iff_of_true ((handle_quiet h hupload params req.input).spec m).1 hnot

/-! ## A server whose trial is over -/

/-- A server without a licence on the day after its trial. -/
def trialOver : Setup :=
  { license := ⟨true, "S".toList, none, some 0, trialDays + 1⟩,
    limits := ⟨fun _ => none, fun _ => none⟩,
    managers := fun _ => none,
    deployWorkers := 6,
    deployWorkers_pos := by decide,
    lxcAccess := true,
    lxc := ⟨fun _ => true, fun _ => true, fun _ => true, fun _ => true⟩,
    sampler := ⟨fun l k => l.take k, fun l k h => by simpa using h, fun l k => List.take_subset k l⟩,
    now := "2025-01-01T00:00:00".toList,
    uuid := "0f8fad5b".toList,
    deployed := fun _ => ⟨⟨[], by simp⟩, [], List.nil_subset _, "0.00".toList⟩,
    attach := fun _ => .ok (),
    configSiem := fun _ => none,
    reportedSiem := fun _ => none,
    elsewhere := fun _ _ _ => .error (.http 404 "Not Found".toList) }

/-- One running container, in the group `lab`. -/
def oneMember : Machine :=
  { containers := ["a-0001".toList],
    running := fun _ => true,
    store :=
      { rows := fun n => if n = "a-0001".toList then some ⟨1, fun c =>
          if c = .agentGroup then .text "lab".toList else .null⟩ else none,
        nextSeqId := 2,
        owners := fun _ => none,
        groups := fun g => decide (g = "lab".toList) },
    known := ["a-0001".toList] }

def labOperator : User := ⟨7, "operator".toList, .operator, false, none, .session⟩

/-- An operator asks to start the container. -/
def startRequest : ApiRequest :=
  ⟨.http .post "/agents/a-0001/start".toList, some labOperator, .none⟩

/-- An operator uploads a line of log to the group. -/
def groupUpload : ApiRequest :=
  ⟨.http .post "/groups/lab/logs/upload".toList, some labOperator,
    .logUpload ⟨"line".toList, "/var/log/app.log".toList⟩⟩

theorem gated_iff_startRequest : Gated trialOver false startRequest oneMember := by
  refine (gated_iff trialOver false startRequest oneMember (by decide +kernel)).mpr ?_
  rintro ⟨e, params, upload, -, -, hinput, -⟩
  exact Input.noConfusion hinput

/-- The upload is done, although no new work is allowed. -/
theorem groupUpload_not_gated : (statusInfo trialOver.license).allowsNewWork = false ∧
    (respond trialOver false groupUpload oneMember).events = [.logUpload "a-0001".toList] ∧
    ¬Gated trialOver false groupUpload oneMember := by
  have hevents : (respond trialOver false groupUpload oneMember).events
      = [.logUpload "a-0001".toList] := by decide +kernel
  refine ⟨by decide +kernel, hevents, fun h => ?_⟩
  have hquiet := h.1 (.logUpload "a-0001".toList) (by rw [hevents]; exact List.mem_singleton_self _)
  exact absurd hquiet (by decide)

end Habeny.Licensing
