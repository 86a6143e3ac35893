import Habeny.Lib.Checks
import Habeny.Lib.JsonValue
import Habeny.Lib.Options

/-!
# The privileged helper

The only part that runs as root.  It reads one request from a connection, checks it, performs one
LXC operation and answers.  A check that fails refuses the request; a value that cannot be looked
up or decoded raises another error, which is answered as well.
-/

namespace Habeny.Helper

open Habeny.Lib CodeText Checks

/-! ## Formats -/

def isAsciiDigit (c : ℕ) : Bool := decide (48 ≤ c ∧ c ≤ 57)

/-- `[A-Za-z]` -/
def isLetter (c : ℕ) : Bool := decide (65 ≤ c ∧ c ≤ 90 ∨ 97 ≤ c ∧ c ≤ 122)

def isAlphanumeric (c : ℕ) : Bool := isLetter c || isAsciiDigit c

/-- `^[A-Za-z0-9][A-Za-z0-9_.-]{0,63}$` -/
def isContainerName : CodeText → Bool
  | [] => false
  | c :: rest =>
    isAlphanumeric c && decide (rest.length ≤ 63) &&
      rest.all fun d => isAlphanumeric d || decide (d ∈ lit "_.-")

/-- `^[A-Za-z0-9_.:-]{1,15}$` -/
def isIface (t : CodeText) : Bool :=
  decide (1 ≤ t.length ∧ t.length ≤ 15) &&
    t.all fun c => isAlphanumeric c || decide (c ∈ lit "_.:-")

/-- `[0-9a-f]` -/
def isHex (c : ℕ) : Bool := isAsciiDigit c || decide (97 ≤ c ∧ c ≤ 102)

/-- `^([0-9a-f]{2}:){5}[0-9a-f]{2}$` -/
def isMac (t : CodeText) : Bool :=
  decide (t.length = 17) && t.zipIdx.all fun e =>
    if e.2 % 3 = 2 then decide (e.1 ∈ lit ":") else isHex e.1

/-- `^[A-Za-z_][A-Za-z0-9_]{0,63}$` -/
def isEnvKey : CodeText → Bool
  | [] => false
  | c :: rest =>
    (isLetter c || decide (c ∈ lit "_")) && decide (rest.length ≤ 63) &&
      rest.all fun d => isAlphanumeric d || decide (d ∈ lit "_")

/-! ## What is allowed -/

def maxMessage : ℕ := 64 * 1024 * 1024

def maxTimeout : ℤ := 3600

def attributes : List CodeText :=
  [lit "state", lit "running", lit "init_pid", lit "defined"]

/-- The methods without arguments. -/
def plainMethods : List CodeText :=
  [lit "start", lit "stop", lit "destroy", lit "save_config", lit "get_ips", lit "get_interfaces"]

def states : List CodeText := [lit "RUNNING", lit "STOPPED", lit "FROZEN"]

def readCgroupKeys : List CodeText :=
  [lit "memory.stat", lit "memory.usage_in_bytes", lit "memory.limit_in_bytes",
    lit "memory.memsw.usage_in_bytes", lit "cpu.stat", lit "pids.current"]

def writeCgroupKeys : List CodeText := [lit "memory.max", lit "cpu.shares"]

/-- The configuration that may be set, with the values. -/
def configValues : List (CodeText × (CodeText → Bool)) :=
  [(lit "lxc.net.0.type", fun v => v == lit "macvlan"),
    (lit "lxc.net.0.macvlan.mode", fun v => v == lit "bridge"),
    (lit "lxc.net.0.link", isIface),
    (lit "lxc.net.0.flags", fun v => v == lit "up"),
    (lit "lxc.net.0.hwaddr", isMac)]

def clearableConfigKeys : List CodeText := [lit "lxc.net.0"]

/-- An image of the download template. -/
structure Image where
  dist : CodeText
  release : CodeText
  arch : CodeText

def allowedImages : List Image :=
  [⟨lit "ubuntu", lit "jammy", lit "amd64"⟩, ⟨lit "ubuntu", lit "noble", lit "amd64"⟩,
    ⟨lit "debian", lit "bookworm", lit "amd64"⟩]

/-- Whether a value is the dictionary of an image. -/
def Image.isJson (i : Image) : JsonValue → Bool
  | .dict entries =>
    decide (entries.length = 3) &&
      decide ((entries.lookup (lit "dist")).bind JsonValue.text? = some i.dist ∧
        (entries.lookup (lit "release")).bind JsonValue.text? = some i.release ∧
        (entries.lookup (lit "arch")).bind JsonValue.text? = some i.arch)
  | _ => false

/-! ## Operations and answers -/

/-- What the helper performs. -/
inductive Operation where
  | info
  | listContainers (active defined : Bool)
  | get (name attr : CodeText)
  | call (name method : CodeText) (args : List JsonValue)
  | readConfig (name : CodeText)
  | attach (cmd : List CodeText) (timeout : ℤ) (stdin : Option (List ℕ))
  | console (cmd : List CodeText) (cols rows : ℤ)

/-- Why a request is refused: a message, which may have a value of the request in it. -/
inductive Refusal where
  | message (text : CodeText)
  | invalidContainerName (name : JsonValue)
  | takesNoArguments (method : CodeText)
  | methodNotAllowed (method : JsonValue)
  | unknownOperation (op : JsonValue)

/-- What is raised: `Refused`, or another exception. -/
inductive Raised where
  | refused (reason : Refusal)
  | other

abbrev Checked (α : Type) := Except Raised α

def refuse {α : Type} (text : String) : Checked α := .error (.refused (.message (lit text)))

/-- What a request comes to: the operations that were performed, and the answer.  A connection of
another user is closed without one. -/
inductive Answer (R : Type) where
  | ok (result : R)
  | refused (reason : Refusal)
  | error

structure Outcome (R : Type) where
  performed : List Operation
  answer : Option (Answer R)

/-- What the helper runs on: Unicode's digits, base64, JSON, whether there can be an object for a
container, what comes of an operation (`none` if it raises), and how `lxc-attach` is called. -/
structure Env (R : Type) where
  isDigit : ℕ → Bool
  isDigit_ascii : ∀ c < 128, isDigit c = isAsciiDigit c
  b64decode : CodeText → Option (List ℕ)
  loads : List ℕ → Option JsonValue
  container : CodeText → Bool
  perform : Operation → Option R
  attachBin : CodeText
  allowedUids : List ℕ

namespace Env

variable {R : Type} (env : Env R)

/-! ## Checks of a field -/

/-- `req.get(key)` -/
def field (req : JsonEntries) (key : String) : JsonValue := (req.lookup (lit key)).getD .null

/-- `value in names`, for a set or a dictionary: a list or a dictionary has no hash. -/
def isAmong (names : List CodeText) : JsonValue → Checked Bool
  | .list _ | .dict _ => .error .other
  | .str t => .ok (decide (t ∈ names))
  | _ => .ok false

def int (value : JsonValue) (lo hi : ℤ) (invalid : String) : Checked ℤ :=
  match value with
  | .int n => if lo ≤ n ∧ n ≤ hi then .ok n else refuse invalid
  | _ => refuse invalid

/-- The name of a container for which there is an object. -/
def containerName (value : JsonValue) : Checked CodeText :=
  match value with
  | .str t =>
    if isContainerName t then
      if env.container t then .ok t else .error .other
    else .error (.refused (.invalidContainerName value))
  | _ => .error (.refused (.invalidContainerName value))

/-- `str.isdigit` -/
def isdigit (t : CodeText) : Bool := !t.isEmpty && t.all env.isDigit

def isCgroupValue : JsonValue → Bool
  | .str t => (env.isdigit t || t == lit "max") && decide (t.length ≤ 20)
  | _ => false

/-! ## The operations -/

def opListContainers (req : JsonEntries) : Checked Operation :=
  match (req.lookup (lit "active")).getD (.bool true),
    (req.lookup (lit "defined")).getD (.bool true) with
  | .bool active, .bool defined => .ok (.listContainers active defined)
  | _, _ => refuse "invalid list flags"

def opContainerGet (req : JsonEntries) : Checked Operation :=
  match field req "attr" with
  | .str attr =>
    if attr ∈ attributes then do
      let name ← env.containerName (field req "name")
      return .get name attr
    else refuse "attribute not allowed"
  | _ => refuse "attribute not allowed"

def checkShutdown : List JsonValue → Checked Unit
  | [timeout] => do
    let _ ← int timeout 0 maxTimeout "invalid timeout"
    return ()
  | _ => refuse "shutdown(timeout)"

def checkWait : List JsonValue → Checked Unit
  | [state, timeout] => do
    let known ← isAmong states state
    require known (.refused (.message (lit "wait(state, timeout)")))
    let _ ← int timeout 0 maxTimeout "invalid timeout"
    return ()
  | _ => refuse "wait(state, timeout)"

def checkGetCgroupItem : List JsonValue → Checked Unit
  | [key] => do
    let known ← isAmong readCgroupKeys key
    require known (.refused (.message (lit "cgroup key not allowed")))
  | _ => refuse "cgroup key not allowed"

def checkSetCgroupItem : List JsonValue → Checked Unit
  | [key, value] => do
    let known ← isAmong writeCgroupKeys key
    require known (.refused (.message (lit "cgroup key not allowed")))
    require (env.isCgroupValue value) (.refused (.message (lit "cgroup value must be a number")))
  | _ => refuse "cgroup key not allowed"

def checkClearConfigItem : List JsonValue → Checked Unit
  | [key] => do
    let known ← isAmong clearableConfigKeys key
    require known (.refused (.message (lit "config key not allowed")))
  | _ => refuse "config key not allowed"

def checkSetConfigItem : List JsonValue → Checked Unit
  | [key, .str value] => do
    let known ← isAmong (configValues.map Prod.fst) key
    require (known &&
      (key.text?.bind fun k => configValues.lookup k).any fun allowed => allowed value)
      (.refused (.message (lit "config key/value not allowed")))
  | _ => refuse "config key/value not allowed"

def checkCreate : List JsonValue → Checked Unit
  | [.str template, flags, image] =>
    require (template == lit "download" && flags.isZero &&
      allowedImages.any fun i => i.isJson image)
      (.refused (.message (lit "only the platform's OS images can be created")))
  | _ => refuse "only the platform's OS images can be created"

/-- The checks of a method's arguments. -/
def checkArgs (method : CodeText) (args : List JsonValue) : Checked Unit :=
  if method ∈ plainMethods then require args.isEmpty (.refused (.takesNoArguments method))
  else if method = lit "shutdown" then checkShutdown args
  else if method = lit "wait" then checkWait args
  else if method = lit "get_cgroup_item" then checkGetCgroupItem args
  else if method = lit "set_cgroup_item" then env.checkSetCgroupItem args
  else if method = lit "clear_config_item" then checkClearConfigItem args
  else if method = lit "set_config_item" then checkSetConfigItem args
  else if method = lit "create" then checkCreate args
  else .error (.refused (.methodNotAllowed (.str method)))

/-- A method and its arguments that pass. -/
def callArgs (method args : JsonValue) : Checked (CodeText × List JsonValue) :=
  match args with
  | .list items =>
    match method with
    | .str m => do
      env.checkArgs m items
      return (m, items)
    | _ => .error (.refused (.methodNotAllowed method))
  | _ => refuse "args must be a list"

def opContainerCall (req : JsonEntries) : Checked Operation := do
  let (method, args) ← env.callArgs (field req "method")
    ((req.lookup (lit "args")).getD (.list []))
  let name ← env.containerName (field req "name")
  return .call name method args

def opReadConfig (req : JsonEntries) : Checked Operation := do
  let name ← env.containerName (field req "name")
  return .readConfig name

/-- A text without null characters. -/
def plainText : JsonValue → Option CodeText
  | .str t => if 0 ∈ t then none else some t
  | _ => none

/-- A variable for the environment of a command. -/
def envEntry (e : CodeText × JsonValue) : Option (CodeText × CodeText) :=
  if isEnvKey e.1 then (plainText e.2).map fun v => (e.1, v) else none

def argvOf : JsonValue → Checked (List CodeText)
  | .list items =>
    if 0 < items.length ∧ items.length ≤ 256 then
      match items.mapM plainText with
      | none => refuse "invalid argv"
      | some argv => .ok argv
    else refuse "invalid argv"
  | _ => refuse "invalid argv"

/-- The variables; any value that counts as false stands for none. -/
def varsOf (value : JsonValue) : Checked (List (CodeText × CodeText)) :=
  if value.truthy then
    match value with
    | .dict entries =>
      match entries.mapM envEntry with
      | none => refuse "invalid env"
      | some vars => .ok vars
    | _ => refuse "invalid env"
  else .ok []

def attachArgv (nameValue argvValue envValue : JsonValue) : Checked (List CodeText) := do
  let name ← env.containerName nameValue
  let argv ← argvOf argvValue
  let vars ← varsOf envValue
  return env.attachBin :: lit "-n" :: name ::
    (vars.flatMap fun kv => [lit "-v", kv.1 ++ lit "=" ++ kv.2]) ++ lit "--" :: argv

/-- The input of a command, from base64. -/
def stdinOf (value : JsonValue) : Checked (Option (List ℕ)) :=
  if value.truthy then
    match value.text?.bind env.b64decode with
    | none => .error .other
    | some bytes => .ok (some bytes)
  else .ok none

def opAttach (req : JsonEntries) : Checked Operation := do
  let cmd ← env.attachArgv (field req "name") (field req "argv") (field req "env")
  let timeout ← int ((req.lookup (lit "run_timeout")).getD (.int 300)) 1 maxTimeout
    "invalid timeout"
  let stdin ← env.stdinOf (field req "input_b64")
  return .attach cmd timeout stdin

def opConsole (req : JsonEntries) : Checked Operation := do
  let cmd ← env.attachArgv (field req "name") (.list [.str (lit "/bin/bash"), .str (lit "-l")])
    (.dict [])
  let cols ← int ((req.lookup (lit "cols")).getD (.int 80)) 1 1000 "invalid cols"
  let rows ← int ((req.lookup (lit "rows")).getD (.int 24)) 1 1000 "invalid rows"
  return .console cmd cols rows

/-- The operations by name. -/
def ops : List (CodeText × (JsonEntries → Checked Operation)) :=
  [(lit "info", fun _ => .ok .info), (lit "list_containers", opListContainers),
    (lit "container_get", env.opContainerGet), (lit "container_call", env.opContainerCall),
    (lit "read_config", env.opReadConfig), (lit "attach", env.opAttach)]

/-! ## The server -/

/-- The operation of a request. -/
def dispatch (req : JsonValue) : Checked Operation :=
  match req with
  | .dict entries =>
    match field entries "op" with
    | .str op =>
      if op = lit "console" then env.opConsole entries
      else
        match env.ops.lookup op with
        | none => .error (.refused (.unknownOperation (.str op)))
        | some run => run entries
    | .list _ | .dict _ => .error .other
    | op => .error (.refused (.unknownOperation op))
  | _ => .error (.refused (.unknownOperation .null))

/-- The request of a connection: four bytes of length, and JSON. -/
def recvMessage (stream : List ℕ) : Checked JsonValue :=
  match stream with
  | a :: b :: c :: d :: rest =>
    let length := ((a * 256 + b) * 256 + c) * 256 + d
    if maxMessage < length then .error .other
    else if rest.length < length then .error .other
    else
      match env.loads (rest.take length) with
      | none => .error .other
      | some req => .ok req
  | _ => .error .other

/-- Handle one connection of a user. -/
def handle (uid : ℕ) (stream : List ℕ) : Outcome R :=
  if uid ∉ env.allowedUids then ⟨[], none⟩
  else
    match env.recvMessage stream >>= env.dispatch with
    | .error (.refused reason) => ⟨[], some (.refused reason)⟩
    | .error .other => ⟨[], some .error⟩
    | .ok op =>
      match env.perform op with
      | none => ⟨[op], some .error⟩
      | some result => ⟨[op], some (.ok result)⟩

end Env

end Habeny.Helper
