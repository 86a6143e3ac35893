import Habeny.Helper.AllowList
import Habeny.Helper.Protocol
import Habeny.Lib.Base64

/-!
# The client of the helper

The client offers the part of the python-lxc interface that the app uses.  Each call becomes a
request, which is sent, handled by the helper and answered; the answer becomes a result or an
exception.

A call that the helper allows is performed as it was asked for (`dispatch_payload`), and what the
app gets is what the helper answered, in whatever chunks the answer arrives (`exchange_eq`).
-/

namespace Habeny.Helper.Client

open Habeny.Lib CodeText JsonText Protocol

/-! ## Calls and their requests -/

/-- The properties of `Container`. -/
inductive Attribute where
  | state
  | running
  | initPid
  | defined

def Attribute.name : Attribute → CodeText
  | .state => lit "state"
  | .running => lit "running"
  | .initPid => lit "init_pid"
  | .defined => lit "defined"

/-- The methods of `Container`, with the arguments that are sent. -/
inductive Method where
  | create (template : CodeText) (flags : ℤ) (args : JsonEntries)
  | start
  | stop
  | shutdown (timeout : ℤ)
  | destroy
  | wait (state : CodeText) (timeout : ℤ)
  | saveConfig
  | getIps
  | getInterfaces
  | getCgroupItem (key : CodeText)
  | setCgroupItem (key value : CodeText)
  | setConfigItem (key value : CodeText)
  | clearConfigItem (key : CodeText)

namespace Method

def name : Method → CodeText
  | .create .. => lit "create"
  | .start => lit "start"
  | .stop => lit "stop"
  | .shutdown _ => lit "shutdown"
  | .destroy => lit "destroy"
  | .wait .. => lit "wait"
  | .saveConfig => lit "save_config"
  | .getIps => lit "get_ips"
  | .getInterfaces => lit "get_interfaces"
  | .getCgroupItem _ => lit "get_cgroup_item"
  | .setCgroupItem .. => lit "set_cgroup_item"
  | .setConfigItem .. => lit "set_config_item"
  | .clearConfigItem _ => lit "clear_config_item"

def args : Method → List JsonValue
  | .create template flags args => [.str template, .int flags, .dict args]
  | .shutdown timeout => [.int timeout]
  | .wait state timeout => [.str state, .int timeout]
  | .getCgroupItem key | .clearConfigItem key => [.str key]
  | .setCgroupItem key value | .setConfigItem key value => [.str key, .str value]
  | .start | .stop | .destroy | .saveConfig | .getIps | .getInterfaces => []

/-- Whether a method changes the configuration that an object has in memory. -/
def isSetting : Method → Bool
  | .setConfigItem .. | .clearConfigItem _ => true
  | _ => false

/-- Whether the client makes a tuple of the result. -/
def givesTuple : Method → Bool
  | .getIps | .getInterfaces => true
  | _ => false

end Method

/-- What the app asks for. -/
inductive Ask where
  | listContainers (active defined : Bool)
  | get (name : CodeText) (attr : Attribute)
  | call (name : CodeText) (m : Method)
  | readConfig (name : CodeText)
  | attachRun (name : CodeText) (argv : List CodeText) (vars : List (CodeText × CodeText))
      (input : Option (List ℕ)) (timeout : ℤ)

/-- A request for an operation. -/
def request (op : String) (fields : JsonEntries) : JsonValue :=
  .dict ((lit "op", .str (lit op)) :: fields)

namespace Ask

def payload : Ask → JsonValue
  | .listContainers active defined =>
    request "list_containers" [(lit "active", .bool active), (lit "defined", .bool defined)]
  | .get name attr =>
    request "container_get" [(lit "name", .str name), (lit "attr", .str attr.name)]
  | .call name m =>
    request "container_call"
      [(lit "name", .str name), (lit "method", .str m.name), (lit "args", .list m.args)]
  | .readConfig name => request "read_config" [(lit "name", .str name)]
  | .attachRun name argv vars input timeout =>
    request "attach"
      [(lit "name", .str name), (lit "argv", .list (argv.map .str)),
        (lit "env", .dict (vars.map fun kv => (kv.1, .str kv.2))),
        (lit "input_b64", (input.map fun bytes => .str (Base64.encode bytes)).getD .null),
        (lit "run_timeout", .int timeout)]

/-- How `lxc-attach` is called. -/
def attachCmd (bin name : CodeText) (argv : List CodeText) (vars : List (CodeText × CodeText)) :
    List CodeText :=
  bin :: lit "-n" :: name :: (vars.flatMap fun kv => [lit "-v", kv.1 ++ lit "=" ++ kv.2]) ++
    lit "--" :: argv

/-- The operation that is asked for. -/
def operation (bin : CodeText) : Ask → Operation
  | .listContainers active defined => .listContainers active defined
  | .get name attr => .get name attr.name
  | .call name m => .call name m.name m.args
  | .readConfig name => .readConfig name
  | .attachRun name argv vars input timeout => .attach (attachCmd bin name argv vars) timeout input

end Ask

/-! ## What the helper allows -/

section Allowed

variable {R : Type} (env : Env R)

/-- The calls of methods that the helper allows. -/
def Method.Allowed : Method → Prop
  | .create template flags args => template = lit "download" ∧ flags = 0 ∧
      (allowedImages.any fun i => i.isJson (.dict args)) = true
  | .shutdown timeout => 0 ≤ timeout ∧ timeout ≤ maxTimeout
  | .wait state timeout => state ∈ states ∧ 0 ≤ timeout ∧ timeout ≤ maxTimeout
  | .getCgroupItem key => key ∈ readCgroupKeys
  | .setCgroupItem key value => key ∈ writeCgroupKeys ∧ env.isCgroupValue (.str value) = true
  | .setConfigItem key value => ((configValues.lookup key).any fun allowed => allowed value) = true
  | .clearConfigItem key => key ∈ clearableConfigKeys
  | .start | .stop | .destroy | .saveConfig | .getIps | .getInterfaces => True

/-- A name for which there is an object. -/
def IsContainer (name : CodeText) : Prop :=
  isContainerName name = true ∧ env.container name = true

/-- What the helper allows; it cannot tell an empty input from none. -/
def Ask.Allowed : Ask → Prop
  | .listContainers .. => True
  | .get name _ | .readConfig name => IsContainer env name
  | .call name m => IsContainer env name ∧ m.Allowed env
  | .attachRun name argv vars input timeout => IsContainer env name ∧
      (0 < argv.length ∧ argv.length ≤ 256 ∧ ∀ a ∈ argv, 0 ∉ a) ∧
      (∀ kv ∈ vars, isEnvKey kv.1 = true ∧ 0 ∉ kv.2) ∧
      (1 ≤ timeout ∧ timeout ≤ maxTimeout) ∧
      ∀ bytes ∈ input, bytes ≠ [] ∧ ∀ b ∈ bytes, b < 256

variable {env} {name : CodeText} {m : Method}

lemma IsContainer.eq_ok (h : IsContainer env name) :
    env.containerName (.str name) = .ok name :=
  Env.containerName_eq_ok_iff.mpr ⟨rfl, h.1, h.2⟩

lemma int_eq_ok {n lo hi : ℤ} {invalid : String} (hlo : lo ≤ n) (hhi : n ≤ hi) :
    Env.int (.int n) lo hi invalid = .ok n :=
  Env.int_eq_ok_iff.mpr ⟨rfl, hlo, hhi⟩

/-- The checks by the method: its name decides which is made. -/
lemma checkArgs_name (m : Method) : env.checkArgs m.name m.args =
    match m with
    | .create .. => Env.checkCreate m.args
    | .shutdown _ => Env.checkShutdown m.args
    | .wait .. => Env.checkWait m.args
    | .getCgroupItem _ => Env.checkGetCgroupItem m.args
    | .setCgroupItem .. => env.checkSetCgroupItem m.args
    | .setConfigItem .. => Env.checkSetConfigItem m.args
    | .clearConfigItem _ => Env.checkClearConfigItem m.args
    | .start | .stop | .destroy | .saveConfig | .getIps | .getInterfaces => .ok () := by
  cases m <;> rw [Env.checkArgs, Method.name] <;> simp +decide [Method.args, Checks.require]

/-- **The check of the arguments** lets what is allowed pass. -/
lemma checkArgs_of_allowed (h : m.Allowed env) : env.checkArgs m.name m.args = .ok () := by
  rw [checkArgs_name]
  cases m with
  | create template flags args =>
    obtain ⟨rfl, rfl, himage⟩ := h
    simp [Method.args, Env.checkCreate, himage, JsonValue.isZero, Checks.require]
  | shutdown timeout =>
    simp only [Method.args, Env.checkShutdown, int_eq_ok h.1 h.2]
    rfl
  | wait state timeout =>
    obtain ⟨hstate, hlo, hhi⟩ := h
    simp only [Method.args, Env.checkWait, int_eq_ok hlo hhi, Env.isAmong, decide_eq_true hstate]
    rfl
  | getCgroupItem key =>
    have hkey : key ∈ readCgroupKeys := h
    simp only [Method.args, Env.checkGetCgroupItem, Env.isAmong, decide_eq_true hkey]
    rfl
  | setCgroupItem key value =>
    simp only [Method.args, Env.checkSetCgroupItem, Env.isAmong, decide_eq_true h.1, h.2]
    rfl
  | setConfigItem key value =>
    have hmem : key ∈ configValues.map Prod.fst := by
      obtain ⟨allowed, hlookup, -⟩ := (Option.any_eq_true _ _).mp h
      exact List.mem_map_of_mem (Env.mem_of_lookup hlookup)
    have hvalue : (((JsonValue.str key).text?.bind fun k => configValues.lookup k).any
        fun allowed => allowed value) = true := h
    simp only [Method.args, Env.checkSetConfigItem, Env.isAmong, decide_eq_true hmem, hvalue]
    rfl
  | clearConfigItem key =>
    have hkey : key ∈ clearableConfigKeys := h
    simp only [Method.args, Env.checkClearConfigItem, Env.isAmong, decide_eq_true hkey]
    rfl
  | start | stop | destroy | saveConfig | getIps | getInterfaces => rfl

/-! ## The operation of a request -/

lemma dispatch_request {op : String} {fields : JsonEntries}
    (run : JsonEntries → Checked Operation) (hne : lit op ≠ lit "console")
    (hrun : env.ops.lookup (lit op) = some run) :
    env.dispatch (request op fields) = run ((lit "op", .str (lit op)) :: fields) := by
  have hfield : Env.field ((lit "op", .str (lit op)) :: fields) "op" = .str (lit op) := by
    simp [Env.field]
  rw [request, Env.dispatch, hfield]
  dsimp only
  rw [if_neg hne, hrun]

lemma lookup_cons_ne {es : JsonEntries} {k k' : CodeText} {v : JsonValue} (h : k ≠ k') :
    List.lookup k ((k', v) :: es) = es.lookup k := by
  rw [List.lookup_cons, beq_eq_false_iff_ne.mpr h]

lemma mapM_map_eq_some {α β : Type} {f : α → β} {g : β → Option α} {l : List α}
    (h : ∀ a ∈ l, g (f a) = some a) : (l.map f).mapM g = some l := by
  induction l with
  | nil => rfl
  | cons a l ih =>
    rw [List.map_cons, List.mapM_cons, h a List.mem_cons_self,
      ih fun b hb => h b (List.mem_cons_of_mem _ hb)]
    rfl

lemma plainText_of_notMem {t : CodeText} (h : 0 ∉ t) : Env.plainText (.str t) = some t :=
  if_neg h

lemma argvOf_of_allowed {argv : List CodeText}
    (h : 0 < argv.length ∧ argv.length ≤ 256 ∧ ∀ a ∈ argv, 0 ∉ a) :
    Env.argvOf (.list (argv.map .str)) = .ok argv := by
  have hmap : (argv.map JsonValue.str).mapM Env.plainText = some argv :=
    mapM_map_eq_some fun a ha => plainText_of_notMem (h.2.2 a ha)
  rw [Env.argvOf, List.length_map, if_pos ⟨h.1, h.2.1⟩, hmap]

lemma varsOf_of_allowed {vars : List (CodeText × CodeText)}
    (h : ∀ kv ∈ vars, isEnvKey kv.1 = true ∧ 0 ∉ kv.2) :
    Env.varsOf (.dict (vars.map fun kv => (kv.1, .str kv.2))) = .ok vars := by
  cases vars with
  | nil => rfl
  | cons kv vars =>
    have hmap : ((kv :: vars).map fun kv => (kv.1, JsonValue.str kv.2)).mapM Env.envEntry =
        some (kv :: vars) := by
      refine mapM_map_eq_some fun e he => ?_
      rw [Env.envEntry, if_pos (h e he).1, plainText_of_notMem (h e he).2]
      rfl
    rw [Env.varsOf, if_pos (by rfl), hmap]

lemma stdinOf_of_allowed {input : Option (List ℕ)}
    (hdecode : ∀ text, env.b64decode text = Base64.decode text)
    (h : ∀ bytes ∈ input, bytes ≠ [] ∧ ∀ b ∈ bytes, b < 256) :
    env.stdinOf ((input.map fun bytes => .str (Base64.encode bytes)).getD .null) = .ok input := by
  cases input with
  | none => rfl
  | some bytes =>
    obtain ⟨hne, hbytes⟩ := h bytes rfl
    have hdecoded := Base64.decode_encode hbytes
    have htruthy : (JsonValue.str (Base64.encode bytes)).truthy = true := by
      cases hencode : Base64.encode bytes with
      | nil =>
        rw [hencode] at hdecoded
        exact absurd (Option.some.inj hdecoded).symm hne
      | cons c cs => rfl
    rw [Option.map_some, Option.getD_some, Env.stdinOf, if_pos htruthy]
    simp only [JsonValue.text?, Option.bind_some, hdecode, hdecoded]

/-- **What is allowed is performed as it was asked for.** -/
theorem dispatch_payload {a : Ask} (hdecode : ∀ text, env.b64decode text = Base64.decode text)
    (h : a.Allowed env) : env.dispatch a.payload = .ok (a.operation env.attachBin) := by
  cases a with
  | listContainers active defined =>
    refine (dispatch_request Env.opListContainers (by decide) (by rfl)).trans ?_
    rfl
  | get name attr =>
    refine (dispatch_request env.opContainerGet (by decide) (by rfl)).trans ?_
    have hattr : attr.name ∈ attributes := by cases attr <;> decide
    simp (disch := decide) only [Env.opContainerGet, Env.field, lookup_cons_ne,
      List.lookup_cons_self, Option.getD_some, if_pos hattr, h.eq_ok]
    rfl
  | call name m =>
    refine (dispatch_request env.opContainerCall (by decide) (by rfl)).trans ?_
    simp (disch := decide) only [Env.opContainerCall, Env.field, lookup_cons_ne,
      List.lookup_cons_self, Option.getD_some, Env.callArgs, checkArgs_of_allowed h.2, h.1.eq_ok]
    rfl
  | readConfig name =>
    refine (dispatch_request env.opReadConfig (by decide) (by rfl)).trans ?_
    simp (disch := decide) only [Env.opReadConfig, Env.field, lookup_cons_ne,
      List.lookup_cons_self, Option.getD_some, h.eq_ok]
    rfl
  | attachRun name argv vars input timeout =>
    obtain ⟨hname, hargv, hvars, ⟨hlo, hhi⟩, hinput⟩ := h
    refine (dispatch_request env.opAttach (by decide) (by rfl)).trans ?_
    simp (disch := decide) only [Env.opAttach, Env.attachArgv, Env.field, lookup_cons_ne,
      List.lookup_cons_self, Option.getD_some, hname.eq_ok, argvOf_of_allowed hargv,
      varsOf_of_allowed hvars, stdinOf_of_allowed hdecode hinput, int_eq_ok hlo hhi]
    rfl

end Allowed

/-! ## What a request comes to -/

section Outcomes

variable {R : Type} (env : Env R)

def performedBy : Checked Operation → List Operation
  | .ok op => [op]
  | .error _ => []

def answerOf : Checked Operation → Answer R
  | .error (.refused reason) => .refused reason
  | .error .other => .error
  | .ok op =>
    match env.perform op with
    | none => .error
    | some result => .ok result

variable {env}

/-- A request that arrives is dispatched. -/
lemma handle_eq {uid : ℕ} {stream : List ℕ} {req : JsonValue} (huid : uid ∈ env.allowedUids)
    (hrecv : env.recvMessage stream = .ok req) :
    env.handle uid stream =
      ⟨performedBy (env.dispatch req), some (answerOf env (env.dispatch req))⟩ := by
  have hbind : (env.recvMessage stream >>= env.dispatch) = env.dispatch req := by
    rw [hrecv]
    rfl
  rw [Env.handle, if_neg (not_not.mpr huid), hbind]
  cases env.dispatch req with
  | error e => cases e <;> rfl
  | ok op =>
    simp only [performedBy, answerOf]
    cases env.perform op <;> rfl

end Outcomes

/-! ## Responses -/

/-- An exception of the client. -/
inductive ClientError where
  /-- `ValueError`, when the helper refused -/
  | refused (text : CodeText)
  /-- `HelperError` with the error of the response -/
  | helper (error : JsonValue)
  /-- the connection was closed, or its message cannot be read -/
  | wire (e : Protocol.Error)
  /-- the length of the request has no four bytes -/
  | tooLong

/-- A text that is in a response. -/
abbrev JoinedText := { t : CodeText // IsJoined t }

/-- The texts of values and exceptions. -/
structure Texts where
  /-- `str(value)` -/
  str : JsonValue → CodeText
  str_str : ∀ t, str (.str t) = t
  refusal : Refusal → JoinedText
  /-- the type and the text of another exception -/
  raised : JoinedText

variable {F : FloatText}

/-- The response that the helper sends. -/
def Texts.response (texts : Texts) : Answer (Payload F) → Payload F
  | .ok result => ⟨.dict [(lit "ok", .bool true), (lit "result", result.val)],
      (by decide : [lit "ok", lit "result"].Nodup), ⟨by decide, by decide⟩, trivial,
      ⟨by decide, by decide⟩, result.property, trivial⟩
  | .refused reason => ⟨.dict [(lit "ok", .bool false), (lit "kind", .str (lit "refused")),
        (lit "error", .str (texts.refusal reason).val)],
      (by decide : [lit "ok", lit "kind", lit "error"].Nodup), ⟨by decide, by decide⟩, trivial,
      ⟨by decide, by decide⟩, ⟨by decide, by decide⟩, ⟨by decide, by decide⟩,
      (texts.refusal reason).property, trivial⟩
  | .error => ⟨.dict [(lit "ok", .bool false), (lit "kind", .str (lit "error")),
        (lit "error", .str texts.raised.val)],
      (by decide : [lit "ok", lit "kind", lit "error"].Nodup), ⟨by decide, by decide⟩, trivial,
      ⟨by decide, by decide⟩, ⟨by decide, by decide⟩, ⟨by decide, by decide⟩,
      texts.raised.property, trivial⟩

/-- What `_request` makes of a response. -/
def Texts.interpret (texts : Texts) : JsonValue → Except ClientError JsonValue
  | .dict es =>
    if ((es.lookup (lit "ok")).getD .null).truthy then
      .ok ((es.lookup (lit "result")).getD .null)
    else if JsonValue.text? ((es.lookup (lit "kind")).getD .null) = some (lit "refused") then
      .error (.refused (lit "LXC helper refused: " ++
        texts.str ((es.lookup (lit "error")).getD .null)))
    else .error (.helper ((es.lookup (lit "error")).getD (.str (lit "helper error"))))
  | _ => .error (.helper (.str (lit "malformed helper response")))

/-- What an answer of the helper means to the app. -/
def Texts.resultOf (texts : Texts) : Answer (Payload F) → Except ClientError JsonValue
  | .ok result => .ok result.val
  | .refused reason => .error (.refused (lit "LXC helper refused: " ++ (texts.refusal reason).val))
  | .error => .error (.helper (.str texts.raised.val))

lemma interpret_response (texts : Texts) (answer : Answer (Payload F)) :
    texts.interpret (texts.response answer).val = texts.resultOf answer := by
  cases answer with
  | ok result =>
    simp (disch := decide) only [Texts.response, Texts.interpret, lookup_cons_ne,
      List.lookup_cons_self, Option.getD_some]
    rfl
  | refused reason =>
    simp (disch := decide) only [Texts.response, Texts.interpret, lookup_cons_ne,
      List.lookup_cons_self, Option.getD_some, texts.str_str]
    rfl
  | error =>
    simp (disch := decide) only [Texts.response, Texts.interpret, lookup_cons_ne,
      List.lookup_cons_self, Option.getD_some]
    rfl

/-! ## Over the socket -/

/-- How bytes that were sent arrive, in chunks of any size. -/
structure Transport where
  arrives : List UInt8 → Socket
  bytes_eq : ∀ b, (arrives b).bytes = b

/-- The bytes of a value that is sent. -/
def message (F : FloatText) (v : JsonValue) : Option (List UInt8) :=
  let body := (text F v).map UInt8.ofNat
  if body.length < 2 ^ 32 then some (pack body.length ++ body) else none

/-- A value that can be written, and whose message is not too large. -/
structure Sendable (F : FloatText) (v : JsonValue) : Prop where
  isPayload : IsPayload F v
  length_le : (text F v).length ≤ maxMessage

/-- The bytes of the helper's answer; one that cannot be sent is answered as an error. -/
def answerBytes (texts : Texts) (answer : Answer (Payload F)) : Option (List UInt8) :=
  (message F (texts.response answer).val).or
    (message F (texts.response (F := F) .error).val)

/-- A request and its answer (`_request`), where no descriptors are wanted. -/
def exchange (env : Env (Payload F)) (uid : ℕ) (texts : Texts) (decode : Decoder)
    (transport : Transport) (v : JsonValue) : Except ClientError JsonValue :=
  match message F v with
  | none => .error .tooLong
  | some data =>
    match ((env.handle uid (data.map UInt8.toNat)).answer).bind (answerBytes texts) with
    | none => .error (.wire closedMidMessage)
    | some bytes =>
      match (recvMessage F decode 0 (transport.arrives bytes)).1 with
      | .error e => .error (.wire e)
      | .ok (response, _) => texts.interpret response

lemma Sendable.exists_payload {v : JsonValue} (h : Sendable F v) :
    ∃ p : Payload F, p.val = v ∧ (Payload.body p).length ≤ maxMessage ∧
      message F v = some (pack (Payload.body p).length ++ Payload.body p) := by
  have hlength := h.length_le
  have hbound : maxMessage < 2 ^ 32 := by decide
  refine ⟨⟨v, h.isPayload⟩, rfl, ?_, if_pos ?_⟩
  · rw [Payload.body, List.length_map]
    exact hlength
  · rw [List.length_map]
    omega

lemma recvMessage_cons {env : Env (Payload F)} {a b c d : ℕ} {rest : List ℕ} {v : JsonValue}
    (hlength : ((a * 256 + b) * 256 + c) * 256 + d = rest.length)
    (hmax : rest.length ≤ maxMessage) (hload : env.loads rest = some v) :
    env.recvMessage (a :: b :: c :: d :: rest) = .ok v := by
  rw [Env.recvMessage]
  simp only [hlength]
  rw [if_neg (not_lt.mpr hmax), if_neg (lt_irrefl _), List.take_length, hload]

lemma unpack_four (a b c d : UInt8) : unpack [a, b, c, d] =
    ((a.toNat * 256 + b.toNat) * 256 + c.toNat) * 256 + d.toNat := by
  simp [unpack]

/-- The helper receives the request that was sent. -/
lemma recvMessage_sent {env : Env (Payload F)} {decode : Decoder} {p : Payload F}
    (hloads : ∀ bytes, env.loads bytes = loadsBytes F decode (bytes.map UInt8.ofNat))
    (hlength : (Payload.body p).length ≤ maxMessage) :
    env.recvMessage ((pack (Payload.body p).length ++ Payload.body p).map UInt8.toNat) =
      .ok p.val := by
  have hunpack := unpack_pack (hlength.trans_lt (by decide))
  have hback : ((Payload.body p).map UInt8.toNat).map UInt8.ofNat = Payload.body p := by
    rw [List.map_map]
    exact List.map_id'' (fun b => UInt8.ofNat_toNat) _
  have hload : env.loads ((Payload.body p).map UInt8.toNat) = some p.val := by
    rw [hloads, hback, loadsBytes_body]
  refine recvMessage_cons ?_ ?_ hload
  · rw [List.length_map]
    exact (unpack_four ..).symm.trans hunpack
  · rw [List.length_map]
    exact hlength

/-- **What the app gets is what the helper answered**, however the answer arrives. -/
theorem exchange_eq {env : Env (Payload F)} {uid : ℕ} {texts : Texts} {decode : Decoder}
    {transport : Transport} {v : JsonValue} (huid : uid ∈ env.allowedUids)
    (hloads : ∀ bytes, env.loads bytes = loadsBytes F decode (bytes.map UInt8.ofNat))
    (h : Sendable F v)
    (hresponse : Sendable F (texts.response (answerOf env (env.dispatch v))).val) :
    exchange env uid texts decode transport v =
      texts.resultOf (answerOf env (env.dispatch v)) := by
  obtain ⟨p, rfl, hlength, hdata⟩ := h.exists_payload
  have hhandle := handle_eq huid (recvMessage_sent hloads hlength)
  generalize answerOf env (env.dispatch p.val) = answer at hresponse hhandle
  obtain ⟨q, hq, hqlength, hbytes⟩ := hresponse.exists_payload
  obtain ⟨s', hrecv, -⟩ := (delivered q decode hqlength []).plain
    (transport.arrives (pack (Payload.body q).length ++ Payload.body q)) []
    (by rw [transport.bytes_eq, List.append_nil])
  rw [exchange, hdata]
  dsimp only
  rw [hhandle, Option.bind_some, answerBytes, hbytes, Option.some_or]
  dsimp only
  rw [hrecv]
  dsimp only
  rw [hq, interpret_response]

end Habeny.Helper.Client
