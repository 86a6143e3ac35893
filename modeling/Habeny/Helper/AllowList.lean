import Habeny.Helper.Server

/-!
# The allow-list of the helper

Whatever a request is, the helper refuses it or performs one operation of its allow-list, with
names, numbers and settings inside their limits, and commands whose options are those of the helper.
There is one exception: a cgroup value may be of digits that are not ASCII.
-/

namespace Habeny.Helper

open Habeny.Lib CodeText Checks

/-! ## What is permitted -/

/-- A container name: 1 to 64 permitted characters, the first of them a letter or a digit. -/
structure IsName (t : CodeText) : Prop where
  length : 1 ≤ t.length ∧ t.length ≤ 64
  first : ∀ c ∈ t.head?, isAlphanumeric c = true
  permitted : ∀ c ∈ t, c < 128 ∧ (isAlphanumeric c = true ∨ c ∈ lit "_.-")

/-- A decimal number of at most 20 ASCII digits, or `max`. -/
def IsCgroupValue (t : CodeText) : Prop :=
  t = lit "max" ∨ t ≠ [] ∧ t.length ≤ 20 ∧ ∀ c ∈ t, isAsciiDigit c = true

/-- One of the macvlan settings. -/
def IsMacvlanSetting (key value : CodeText) : Prop :=
  key = lit "lxc.net.0.type" ∧ value = lit "macvlan" ∨
    key = lit "lxc.net.0.macvlan.mode" ∧ value = lit "bridge" ∨
    key = lit "lxc.net.0.link" ∧ isIface value = true ∨
    key = lit "lxc.net.0.flags" ∧ value = lit "up" ∨
    key = lit "lxc.net.0.hwaddr" ∧ isMac value = true

/-- The calls of the allow-list, with the cgroup values that are allowed. -/
inductive PermittedCall (isValue : CodeText → Prop) : CodeText → List JsonValue → Prop
  | plain {method : CodeText} (h : method ∈ plainMethods) : PermittedCall isValue method []
  | shutdown {n : ℤ} (h : 0 ≤ n ∧ n ≤ maxTimeout) :
    PermittedCall isValue (lit "shutdown") [.int n]
  | wait {state : CodeText} {n : ℤ} (hstate : state ∈ states) (h : 0 ≤ n ∧ n ≤ maxTimeout) :
    PermittedCall isValue (lit "wait") [.str state, .int n]
  | getCgroupItem {key : CodeText} (h : key ∈ readCgroupKeys) :
    PermittedCall isValue (lit "get_cgroup_item") [.str key]
  | setCgroupItem {key value : CodeText} (h : key ∈ writeCgroupKeys) (hvalue : isValue value) :
    PermittedCall isValue (lit "set_cgroup_item") [.str key, .str value]
  | clearConfigItem {key : CodeText} (h : key ∈ clearableConfigKeys) :
    PermittedCall isValue (lit "clear_config_item") [.str key]
  | setConfigItem {key value : CodeText} (h : IsMacvlanSetting key value) :
    PermittedCall isValue (lit "set_config_item") [.str key, .str value]
  | create {flags image : JsonValue} (hflags : flags.isZero = true)
    (himage : ∃ i ∈ allowedImages, i.isJson image = true) :
    PermittedCall isValue (lit "create") [.str (lit "download"), flags, image]

/-- The options that the helper gives `lxc-attach`. -/
def attachOptions (name : CodeText) (vars : List (CodeText × CodeText)) :
    List (CodeText × CodeText) :=
  (lit "-n", name) :: vars.map fun kv => (lit "-v", kv.1 ++ lit "=" ++ kv.2)

variable {R : Type}

/-- A command `lxc-attach -n NAME [-v KEY=VALUE]* -- ARGV`: a program that takes values for `-n` and
`-v` reads no other options of it. -/
structure IsAttach (env : Env R) (name : CodeText) (vars : List (CodeText × CodeText))
    (argv cmd : List CodeText) : Prop where
  form : cmd =
    env.attachBin :: (Options.arguments (attachOptions name vars) ++ Options.dashes :: argv)
  isName : IsName name
  keys : ∀ kv ∈ vars, isEnvKey kv.1 = true
  only_options : ∀ takesValue : CodeText → Bool, takesValue (lit "-n") = true →
    takesValue (lit "-v") = true → Options.read takesValue cmd.tail =
      some ((attachOptions name vars).map fun o => (o.1, some o.2), argv)

/-- The operations of the allow-list. -/
def Permitted (env : Env R) (isValue : CodeText → Prop) : Operation → Prop
  | .info => True
  | .listContainers _ _ => True
  | .get name attr => IsName name ∧ attr ∈ attributes
  | .call name method args => IsName name ∧ PermittedCall isValue method args
  | .readConfig name => IsName name
  | .attach cmd timeout _ =>
    (∃ name vars argv, IsAttach env name vars argv cmd) ∧ 1 ≤ timeout ∧ timeout ≤ maxTimeout
  | .console cmd cols rows =>
    (∃ name, IsAttach env name [] [lit "/bin/bash", lit "-l"] cmd) ∧
      (1 ≤ cols ∧ cols ≤ 1000) ∧ 1 ≤ rows ∧ rows ≤ 1000

/-- A request was refused or raised with nothing performed, or one operation of the allow-list was
performed. -/
def Outcome.Safe (env : Env R) (o : Outcome R) : Prop :=
  (o.performed = [] ∧ ∀ r, o.answer ≠ some (.ok r)) ∨
    ∃ op, o.performed = [op] ∧ Permitted env IsCgroupValue op

lemma PermittedCall.imp {P Q : CodeText → Prop} {method : CodeText} {args : List JsonValue}
    (h : PermittedCall P method args)
    (hset : ∀ key value, method = lit "set_cgroup_item" → args = [.str key, .str value] →
      key ∈ writeCgroupKeys → P value → Q value) : PermittedCall Q method args := by
  cases h with
  | plain h => exact .plain h
  | shutdown h => exact .shutdown h
  | wait hstate h => exact .wait hstate h
  | getCgroupItem h => exact .getCgroupItem h
  | setCgroupItem h hvalue => exact .setCgroupItem h (hset _ _ rfl rfl h hvalue)
  | clearConfigItem h => exact .clearConfigItem h
  | setConfigItem h => exact .setConfigItem h
  | create hflags himage => exact .create hflags himage

/-- A permitted call that sets a cgroup item sets a permitted value. -/
lemma PermittedCall.value {P : CodeText → Prop} {method : CodeText} {args : List JsonValue}
    (h : PermittedCall P method args) (hmethod : method = lit "set_cgroup_item") :
    ∃ key value, args = [.str key, .str value] ∧ P value := by
  cases h with
  | plain h => exact absurd (hmethod ▸ h) (by decide)
  | setCgroupItem h hvalue => exact ⟨_, _, rfl, hvalue⟩
  | shutdown | wait | getCgroupItem | clearConfigItem | setConfigItem | create =>
    exact absurd hmethod (by decide)

lemma Permitted.imp {env : Env R} {P Q : CodeText → Prop} {op : Operation}
    (h : Permitted env P op)
    (hcall : ∀ name method args, op = .call name method args → PermittedCall P method args →
      PermittedCall Q method args) : Permitted env Q op := by
  cases op with
  | call name method args => exact ⟨h.1, hcall name method args rfl h.2⟩
  | _ => exact h

/-! ## The checks of a field -/

lemma isAscii_of_isAlphanumeric {c : ℕ} (h : isAlphanumeric c = true) : c < 128 := by
  simp only [isAlphanumeric, isLetter, isAsciiDigit, Bool.or_eq_true, decide_eq_true_eq] at h
  omega

lemma isName_of_isContainerName {t : CodeText} (h : isContainerName t = true) : IsName t := by
  cases t with
  | nil => exact absurd h (by simp [isContainerName])
  | cons c rest =>
    simp only [isContainerName, Bool.and_eq_true, decide_eq_true_eq, List.all_eq_true,
      Bool.or_eq_true] at h
    obtain ⟨⟨hfirst, hlength⟩, hrest⟩ := h
    have hall : ∀ d ∈ c :: rest, isAlphanumeric d = true ∨ d ∈ lit "_.-" := by
      intro d hd
      rcases List.mem_cons.mp hd with rfl | hd
      · exact .inl hfirst
      · exact hrest d hd
    have hpunctuation : ∀ d ∈ lit "_.-", d < 128 := by decide
    have hle : (c :: rest).length ≤ 64 := by
      rw [List.length_cons]
      omega
    refine ⟨⟨by simp, hle⟩, ?_, fun d hd => ⟨?_, hall d hd⟩⟩
    · intro d hd
      cases hd
      exact hfirst
    · exact (hall d hd).elim isAscii_of_isAlphanumeric (hpunctuation d)

namespace Env

variable {env : Env R}

lemma int_eq_ok_iff {value : JsonValue} {lo hi n : ℤ} {invalid : String} :
    int value lo hi invalid = .ok n ↔ value = .int n ∧ lo ≤ n ∧ n ≤ hi := by
  cases value with
  | int m =>
    simp only [int, JsonValue.int.injEq]
    split_ifs with h
    · constructor
      · intro hok
        cases hok
        exact ⟨rfl, h⟩
      · rintro ⟨rfl, -⟩
        rfl
    · constructor
      · intro hok
        cases hok
      · rintro ⟨rfl, hn⟩
        exact absurd hn h
  | _ => simp [int, refuse]

lemma isAmong_eq_ok_true_iff {names : List CodeText} {value : JsonValue} :
    isAmong names value = .ok true ↔ ∃ t ∈ names, value = .str t := by
  cases value <;> simp [isAmong]

/-- A value that has to be among some names. -/
lemma require_isAmong_iff {names : List CodeText} {value : JsonValue} {e : Raised} {u : Unit} :
    (isAmong names value >>= fun known => require known e) = .ok u ↔
      ∃ t ∈ names, value = .str t := by
  rw [← isAmong_eq_ok_true_iff, bind_eq_ok_iff]
  simp

lemma containerName_eq_ok_iff {value : JsonValue} {name : CodeText} :
    env.containerName value = .ok name ↔
      value = .str name ∧ isContainerName name = true ∧ env.container name = true := by
  cases value with
  | str t =>
    simp only [containerName, JsonValue.str.injEq]
    constructor
    · intro h
      split_ifs at h with hname hcontainer
      · cases h
        exact ⟨rfl, hname, hcontainer⟩
    · rintro ⟨rfl, hname, hcontainer⟩
      rw [if_pos hname, if_pos hcontainer]
  | _ => simp [containerName]

/-! ## The checks of a call -/

/-- The cgroup values that pass. -/
def Accepts (env : Env R) (value : CodeText) : Prop := env.isCgroupValue (.str value) = true

lemma checkShutdown_ok {args : List JsonValue} (h : checkShutdown args = .ok ()) :
    ∃ n, args = [.int n] ∧ 0 ≤ n ∧ n ≤ maxTimeout := by
  rw [checkShutdown.eq_def] at h
  split at h
  · next timeout =>
    simp only [bind_eq_ok_iff, int_eq_ok_iff] at h
    obtain ⟨n, ⟨rfl, hn⟩, -⟩ := h
    exact ⟨n, rfl, hn⟩
  · cases h

lemma checkWait_ok {args : List JsonValue} (h : checkWait args = .ok ()) :
    ∃ state ∈ states, ∃ n, args = [.str state, .int n] ∧ 0 ≤ n ∧ n ≤ maxTimeout := by
  rw [checkWait.eq_def] at h
  split at h
  · next state timeout =>
    simp only [bind_eq_ok_iff, int_eq_ok_iff, require_eq_ok_iff] at h
    obtain ⟨known, hknown, ⟨⟩, rfl, n, ⟨rfl, hn⟩, -⟩ := h
    obtain ⟨t, ht, rfl⟩ := isAmong_eq_ok_true_iff.mp hknown
    exact ⟨t, ht, n, rfl, hn⟩
  · cases h

lemma checkGetCgroupItem_ok {args : List JsonValue} (h : checkGetCgroupItem args = .ok ()) :
    ∃ key ∈ readCgroupKeys, args = [.str key] := by
  rw [checkGetCgroupItem.eq_def] at h
  split at h
  · next key =>
    obtain ⟨t, ht, rfl⟩ := require_isAmong_iff.mp h
    exact ⟨t, ht, rfl⟩
  · cases h

lemma checkSetCgroupItem_ok {args : List JsonValue} (h : env.checkSetCgroupItem args = .ok ()) :
    ∃ key ∈ writeCgroupKeys, ∃ value, args = [.str key, .str value] ∧ env.Accepts value := by
  rw [checkSetCgroupItem.eq_def] at h
  split at h
  · next key value =>
    simp only [bind_eq_ok_iff, require_eq_ok_iff] at h
    obtain ⟨known, hknown, ⟨⟩, rfl, hvalue⟩ := h
    obtain ⟨t, ht, rfl⟩ := isAmong_eq_ok_true_iff.mp hknown
    cases value with
    | str v => exact ⟨t, ht, v, rfl, hvalue⟩
    | _ => exact absurd hvalue (by simp [isCgroupValue])
  · cases h

lemma checkClearConfigItem_ok {args : List JsonValue} (h : checkClearConfigItem args = .ok ()) :
    ∃ key ∈ clearableConfigKeys, args = [.str key] := by
  rw [checkClearConfigItem.eq_def] at h
  split at h
  · next key =>
    obtain ⟨t, ht, rfl⟩ := require_isAmong_iff.mp h
    exact ⟨t, ht, rfl⟩
  · cases h

lemma mem_of_lookup {V : Type} {entries : List (CodeText × V)} {key : CodeText} {v : V}
    (h : entries.lookup key = some v) : (key, v) ∈ entries := by
  obtain ⟨front, back, rfl, -⟩ := List.lookup_eq_some_iff.mp h
  exact List.mem_append_right front List.mem_cons_self

/-- The values that the configuration table allows are the macvlan settings. -/
lemma isMacvlanSetting_of_lookup {key value : CodeText} {allowed : CodeText → Bool}
    (h : configValues.lookup key = some allowed) (hvalue : allowed value = true) :
    IsMacvlanSetting key value := by
  have hmem := mem_of_lookup h
  simp only [configValues, List.mem_cons, Prod.mk.injEq, List.not_mem_nil, or_false] at hmem
  rcases hmem with ⟨hkey, rfl⟩ | ⟨hkey, rfl⟩ | ⟨hkey, rfl⟩ | ⟨hkey, rfl⟩ | ⟨hkey, rfl⟩
  · exact .inl ⟨hkey, beq_iff_eq.mp hvalue⟩
  · exact .inr (.inl ⟨hkey, beq_iff_eq.mp hvalue⟩)
  · exact .inr (.inr (.inl ⟨hkey, hvalue⟩))
  · exact .inr (.inr (.inr (.inl ⟨hkey, beq_iff_eq.mp hvalue⟩)))
  · exact .inr (.inr (.inr (.inr ⟨hkey, hvalue⟩)))

lemma checkSetConfigItem_ok {args : List JsonValue} (h : checkSetConfigItem args = .ok ()) :
    ∃ key value, args = [.str key, .str value] ∧ IsMacvlanSetting key value := by
  rw [checkSetConfigItem.eq_def] at h
  split at h
  · next key value =>
    simp only [bind_eq_ok_iff, require_eq_ok_iff, Bool.and_eq_true] at h
    obtain ⟨known, hknown, rfl, hvalue⟩ := h
    obtain ⟨t, ht, rfl⟩ := isAmong_eq_ok_true_iff.mp hknown
    obtain ⟨allowed, hlookup, hallowed⟩ := (Option.any_eq_true _ _).mp hvalue
    exact ⟨t, value, rfl, isMacvlanSetting_of_lookup hlookup hallowed⟩
  · cases h

lemma checkCreate_ok {args : List JsonValue} (h : checkCreate args = .ok ()) :
    ∃ flags image, args = [.str (lit "download"), flags, image] ∧ flags.isZero = true ∧
      ∃ i ∈ allowedImages, i.isJson image = true := by
  rw [checkCreate.eq_def] at h
  split at h
  · next template flags image =>
    simp only [require_eq_ok_iff, Bool.and_eq_true, beq_iff_eq, List.any_eq_true] at h
    obtain ⟨⟨rfl, hflags⟩, himage⟩ := h
    exact ⟨flags, image, rfl, hflags, himage⟩
  · cases h

/-- **A call that passes is on the allow-list**, with the cgroup values that pass. -/
theorem permittedCall_of_checkArgs {method : CodeText} {args : List JsonValue}
    (h : env.checkArgs method args = .ok ()) : PermittedCall env.Accepts method args := by
  rw [checkArgs] at h
  split_ifs at h with hplain hshutdown hwait hget hset hclear hconfig hcreate
  · rw [require_eq_ok_iff, List.isEmpty_iff] at h
    subst h
    exact .plain hplain
  · obtain ⟨n, rfl, hn⟩ := checkShutdown_ok h
    exact hshutdown ▸ .shutdown hn
  · obtain ⟨state, hstate, n, rfl, hn⟩ := checkWait_ok h
    exact hwait ▸ .wait hstate hn
  · obtain ⟨key, hkey, rfl⟩ := checkGetCgroupItem_ok h
    exact hget ▸ .getCgroupItem hkey
  · obtain ⟨key, hkey, value, rfl, hvalue⟩ := checkSetCgroupItem_ok h
    exact hset ▸ .setCgroupItem hkey hvalue
  · obtain ⟨key, hkey, rfl⟩ := checkClearConfigItem_ok h
    exact hclear ▸ .clearConfigItem hkey
  · obtain ⟨key, value, rfl, hsetting⟩ := checkSetConfigItem_ok h
    exact hconfig ▸ .setConfigItem hsetting
  · obtain ⟨flags, image, rfl, hflags, himage⟩ := checkCreate_ok h
    exact hcreate ▸ .create hflags himage

/-! ## The command -/

lemma isEnvKey_of_envEntry {e : CodeText × JsonValue} {kv : CodeText × CodeText}
    (h : envEntry e = some kv) : isEnvKey kv.1 = true := by
  rw [envEntry] at h
  split_ifs at h with hkey
  obtain ⟨v, -, rfl⟩ := Option.map_eq_some_iff.mp h
  exact hkey

lemma isEnvKey_of_mapM {entries : JsonEntries} {vars : List (CodeText × CodeText)}
    (h : entries.mapM envEntry = some vars) : ∀ kv ∈ vars, isEnvKey kv.1 = true := by
  induction entries generalizing vars with
  | nil =>
    cases h
    exact fun kv hkv => absurd hkv List.not_mem_nil
  | cons e entries ih =>
    rw [List.mapM_cons] at h
    obtain ⟨first, hfirst, h⟩ := Option.bind_eq_some_iff.mp h
    obtain ⟨rest, hrest, h⟩ := Option.bind_eq_some_iff.mp h
    cases h
    intro kv hkv
    rcases List.mem_cons.mp hkv with rfl | hkv
    · exact isEnvKey_of_envEntry hfirst
    · exact ih hrest kv hkv

lemma varsOf_ok {value : JsonValue} {vars : List (CodeText × CodeText)}
    (h : varsOf value = .ok vars) : ∀ kv ∈ vars, isEnvKey kv.1 = true := by
  rw [varsOf.eq_def] at h
  split_ifs at h
  · cases value with
    | dict entries =>
      dsimp only at h
      cases hvars : entries.mapM envEntry with
      | none =>
        rw [hvars] at h
        cases h
      | some vars' =>
        rw [hvars] at h
        cases h
        exact isEnvKey_of_mapM hvars
    | _ => exact absurd h (by simp [refuse])
  · cases h
    exact fun kv hkv => absurd hkv List.not_mem_nil

/-- **A command that passes has the options of the helper only.** -/
theorem isAttach_of_attachArgv {nameValue argvValue envValue : JsonValue} {cmd : List CodeText}
    (h : env.attachArgv nameValue argvValue envValue = .ok cmd) :
    ∃ name vars argv, argvOf argvValue = .ok argv ∧ varsOf envValue = .ok vars ∧
      IsAttach env name vars argv cmd := by
  simp only [attachArgv, bind_eq_ok_iff] at h
  obtain ⟨name, hname, argv, hargv, vars, hvars, hcmd⟩ := h
  obtain ⟨rfl, hcontainer, -⟩ := containerName_eq_ok_iff.mp hname
  cases hcmd
  have hform : env.attachBin :: lit "-n" :: name ::
      (vars.flatMap fun kv => [lit "-v", kv.1 ++ lit "=" ++ kv.2]) ++ lit "--" :: argv =
      env.attachBin :: (Options.arguments (attachOptions name vars) ++ Options.dashes :: argv) := by
    simp [Options.arguments, attachOptions, List.flatMap_map, Options.dashes]
  refine ⟨name, vars, argv, hargv, hvars, hform, isName_of_isContainerName hcontainer,
    varsOf_ok hvars, fun takesValue hn hv => ?_⟩
  rw [hform]
  refine Options.read_arguments (fun o ho => ?_) argv
  have hdashes : lit "-n" ≠ Options.dashes ∧ lit "-v" ≠ Options.dashes := by decide
  rcases List.mem_cons.mp ho with rfl | ho
  · exact ⟨hn, hdashes.1⟩
  · obtain ⟨kv, -, rfl⟩ := List.mem_map.mp ho
    exact ⟨hv, hdashes.2⟩

/-! ## The operations -/

lemma opListContainers_ok {req : JsonEntries} {op : Operation} (h : opListContainers req = .ok op) :
    ∃ active defined, op = .listContainers active defined := by
  rw [opListContainers] at h
  split at h
  · next active defined _ _ =>
    cases h
    exact ⟨active, defined, rfl⟩
  · cases h

lemma opContainerGet_ok {req : JsonEntries} {op : Operation} (h : env.opContainerGet req = .ok op) :
    ∃ name attr, op = .get name attr ∧ IsName name ∧ attr ∈ attributes := by
  rw [opContainerGet.eq_def] at h
  cases hfield : field req "attr" with
  | str attr =>
    rw [hfield] at h
    dsimp only at h
    split_ifs at h with hattr
    · obtain ⟨name, hname, hop⟩ := bind_eq_ok_iff.mp h
      cases hop
      obtain ⟨-, hcontainer, -⟩ := containerName_eq_ok_iff.mp hname
      exact ⟨name, attr, rfl, isName_of_isContainerName hcontainer, hattr⟩
    · cases h
  | _ =>
    rw [hfield] at h
    cases h

/-- A call has the name, the method and the arguments of the request. -/
lemma opContainerCall_ok {req : JsonEntries} {op : Operation}
    (h : env.opContainerCall req = .ok op) :
    ∃ name method args, op = .call name method args ∧ field req "method" = .str method ∧
      (req.lookup (lit "args")).getD (.list []) = .list args ∧
      env.checkArgs method args = .ok () ∧ env.containerName (field req "name") = .ok name := by
  simp only [opContainerCall, bind_eq_ok_iff] at h
  obtain ⟨⟨method, args⟩, hcall, name, hname, hop⟩ := h
  cases hop
  rw [callArgs.eq_def] at hcall
  cases hargs : (req.lookup (lit "args")).getD (.list []) with
  | list items =>
    rw [hargs] at hcall
    cases hmethod : field req "method" with
    | str m =>
      rw [hmethod] at hcall
      obtain ⟨⟨⟩, hcheck, hpair⟩ := bind_eq_ok_iff.mp hcall
      cases hpair
      exact ⟨name, _, _, rfl, rfl, rfl, hcheck, hname⟩
    | _ =>
      rw [hmethod] at hcall
      cases hcall
  | _ =>
    rw [hargs] at hcall
    cases hcall

lemma opReadConfig_ok {req : JsonEntries} {op : Operation} (h : env.opReadConfig req = .ok op) :
    ∃ name, op = .readConfig name ∧ IsName name := by
  obtain ⟨name, hname, hop⟩ := bind_eq_ok_iff.mp h
  cases hop
  obtain ⟨-, hcontainer, -⟩ := containerName_eq_ok_iff.mp hname
  exact ⟨name, rfl, isName_of_isContainerName hcontainer⟩

lemma opAttach_ok {req : JsonEntries} {op : Operation} (h : env.opAttach req = .ok op) :
    ∃ cmd timeout stdin, op = .attach cmd timeout stdin ∧
      (∃ name vars argv, IsAttach env name vars argv cmd) ∧ 1 ≤ timeout ∧ timeout ≤ maxTimeout := by
  simp only [opAttach, bind_eq_ok_iff, int_eq_ok_iff] at h
  obtain ⟨cmd, hcmd, timeout, ⟨-, hlo, hhi⟩, stdin, -, hop⟩ := h
  cases hop
  obtain ⟨name, vars, argv, -, -, hattach⟩ := isAttach_of_attachArgv hcmd
  exact ⟨cmd, timeout, stdin, rfl, ⟨name, vars, argv, hattach⟩, hlo, hhi⟩

lemma opConsole_ok {req : JsonEntries} {op : Operation} (h : env.opConsole req = .ok op) :
    ∃ cmd cols rows, op = .console cmd cols rows ∧
      (∃ name, IsAttach env name [] [lit "/bin/bash", lit "-l"] cmd) ∧
      (1 ≤ cols ∧ cols ≤ 1000) ∧ 1 ≤ rows ∧ rows ≤ 1000 := by
  simp only [opConsole, bind_eq_ok_iff, int_eq_ok_iff] at h
  obtain ⟨cmd, hcmd, cols, ⟨-, hcols⟩, rows, ⟨-, hrows⟩, hop⟩ := h
  cases hop
  obtain ⟨name, vars, argv, hargv, hvars, hattach⟩ := isAttach_of_attachArgv hcmd
  cases hargv
  cases hvars
  exact ⟨cmd, cols, rows, rfl, ⟨name, hattach⟩, hcols, hrows⟩

/-! ## The server -/

/-- The operation that is dispatched is that of the request. -/
lemma dispatch_ok {req : JsonValue} {op : Operation} (h : env.dispatch req = .ok op) :
    ∃ entries, req = .dict entries ∧
      ((field entries "op" = .str (lit "console") ∧ env.opConsole entries = .ok op) ∨
        ∃ name run, field entries "op" = .str name ∧ (name, run) ∈ env.ops ∧
          run entries = .ok op) := by
  cases req with
  | dict entries =>
    refine ⟨entries, rfl, ?_⟩
    rw [dispatch] at h
    cases hop : field entries "op" with
    | str name =>
      rw [hop] at h
      dsimp only at h
      split_ifs at h with hconsole
      · exact .inl ⟨by rw [hconsole], h⟩
      · cases hrun : env.ops.lookup name with
        | none =>
          rw [hrun] at h
          cases h
        | some run =>
          rw [hrun] at h
          exact .inr ⟨name, run, rfl, mem_of_lookup hrun, h⟩
    | _ =>
      rw [hop] at h
      cases h
  | _ => cases h

/-- **What is dispatched is on the allow-list**, with the cgroup values that pass. -/
theorem permitted_of_dispatch {req : JsonValue} {op : Operation} (h : env.dispatch req = .ok op) :
    Permitted env env.Accepts op := by
  obtain ⟨entries, -, ⟨-, hconsole⟩ | ⟨name, run, -, hmem, hrun⟩⟩ := dispatch_ok h
  · obtain ⟨cmd, cols, rows, rfl, hop⟩ := opConsole_ok hconsole
    exact hop
  · simp only [ops, List.mem_cons, Prod.mk.injEq, List.not_mem_nil, or_false] at hmem
    rcases hmem with ⟨-, rfl⟩ | ⟨-, rfl⟩ | ⟨-, rfl⟩ | ⟨-, rfl⟩ | ⟨-, rfl⟩ | ⟨-, rfl⟩
    · cases hrun
      trivial
    · obtain ⟨active, defined, rfl⟩ := opListContainers_ok hrun
      trivial
    · obtain ⟨name, attr, rfl, hop⟩ := opContainerGet_ok hrun
      exact hop
    · obtain ⟨name, method, args, rfl, -, -, hcheck, hname⟩ := opContainerCall_ok hrun
      obtain ⟨-, hcontainer, -⟩ := containerName_eq_ok_iff.mp hname
      exact ⟨isName_of_isContainerName hcontainer, permittedCall_of_checkArgs hcheck⟩
    · obtain ⟨name, rfl, hop⟩ := opReadConfig_ok hrun
      exact hop
    · obtain ⟨cmd, timeout, stdin, rfl, hop⟩ := opAttach_ok hrun
      exact hop

/-! ## Digits that are not ASCII -/

/-- At most 20 digits, one of which is not ASCII. -/
def IsOtherNumber (env : Env R) (value : CodeText) : Prop :=
  env.isdigit value = true ∧ value.length ≤ 20 ∧ ∃ c ∈ value, 128 ≤ c

lemma not_isCgroupValue {value : CodeText} (h : env.IsOtherNumber value) :
    ¬IsCgroupValue value := by
  obtain ⟨-, -, c, hc, hlarge⟩ := h
  rintro (rfl | ⟨-, -, hdigits⟩)
  · have hmax : ∀ c ∈ lit "max", c < 128 := by decide
    exact absurd (hmax c hc) (not_lt.mpr hlarge)
  · have hdigit := hdigits c hc
    simp only [isAsciiDigit, decide_eq_true_eq] at hdigit
    omega

/-- What passes as a cgroup value is one, or a number of other digits. -/
lemma accepts_iff {value : CodeText} :
    env.Accepts value ↔ IsCgroupValue value ∨ env.IsOtherNumber value := by
  simp only [Accepts, isCgroupValue, Bool.and_eq_true, Bool.or_eq_true, beq_iff_eq,
    decide_eq_true_eq]
  constructor
  · rintro ⟨hdigit | rfl, hlength⟩
    · by_cases hother : ∃ c ∈ value, 128 ≤ c
      · exact .inr ⟨hdigit, hlength, hother⟩
      · simp only [isdigit, Bool.and_eq_true, List.all_eq_true] at hdigit
        refine .inl (.inr ⟨by simpa using hdigit.1, hlength, fun c hc => ?_⟩)
        have hsmall : c < 128 := by
          by_contra hlarge
          exact hother ⟨c, hc, not_lt.mp hlarge⟩
        rw [← env.isDigit_ascii c hsmall]
        exact hdigit.2 c hc
    · exact .inl (.inl rfl)
  · rintro ((rfl | ⟨hnil, hlength, hdigits⟩) | ⟨hdigit, hlength, -⟩)
    · exact ⟨.inr rfl, by decide⟩
    · refine ⟨.inl ?_, hlength⟩
      simp only [isdigit, Bool.and_eq_true, List.all_eq_true]
      refine ⟨by simpa using hnil, fun c hc => ?_⟩
      have hdigit := hdigits c hc
      rw [env.isDigit_ascii c]
      · exact hdigit
      · simp only [isAsciiDigit, decide_eq_true_eq] at hdigit
        omega
    · exact ⟨.inl hdigit, hlength⟩

/-- A request to set a cgroup item to a number of digits that are not all ASCII, of a container
for which there is an object. -/
def SetsOtherNumber (env : Env R) (uid : ℕ) (stream : List ℕ) : Prop :=
  uid ∈ env.allowedUids ∧ ∃ entries name key value,
    env.recvMessage stream = .ok (.dict entries) ∧
    field entries "op" = .str (lit "container_call") ∧
    field entries "method" = .str (lit "set_cgroup_item") ∧
    (entries.lookup (lit "args")).getD (.list []) = .list [.str key, .str value] ∧
    (field entries "name" = .str name ∧ isContainerName name = true ∧ env.container name = true) ∧
    key ∈ writeCgroupKeys ∧ env.IsOtherNumber value

/-- A call is dispatched from the request for it. -/
lemma dispatch_call {req : JsonValue} {name method : CodeText} {args : List JsonValue}
    (h : env.dispatch req = .ok (.call name method args)) : ∃ entries, req = .dict entries ∧
      field entries "op" = .str (lit "container_call") ∧ field entries "method" = .str method ∧
      (entries.lookup (lit "args")).getD (.list []) = .list args ∧
      env.containerName (field entries "name") = .ok name := by
  obtain ⟨entries, rfl, ⟨-, hconsole⟩ | ⟨op, run, hop, hmem, hrun⟩⟩ := dispatch_ok h
  · obtain ⟨cmd, cols, rows, hcall, -⟩ := opConsole_ok hconsole
    cases hcall
  · simp only [ops, List.mem_cons, Prod.mk.injEq, List.not_mem_nil, or_false] at hmem
    rcases hmem with ⟨-, rfl⟩ | ⟨-, rfl⟩ | ⟨-, rfl⟩ | ⟨rfl, rfl⟩ | ⟨-, rfl⟩ | ⟨-, rfl⟩
    · cases hrun
    · obtain ⟨active, defined, hcall⟩ := opListContainers_ok hrun
      cases hcall
    · obtain ⟨name, attr, hcall, -⟩ := opContainerGet_ok hrun
      cases hcall
    · obtain ⟨name', method', args', hcall, hmethod, hargs, -, hname⟩ := opContainerCall_ok hrun
      cases hcall
      exact ⟨entries, rfl, hop, hmethod, hargs, hname⟩
    · obtain ⟨name, hcall, -⟩ := opReadConfig_ok hrun
      cases hcall
    · obtain ⟨cmd, timeout, stdin, hcall, -⟩ := opAttach_ok hrun
      cases hcall

/-- Such a request is performed. -/
lemma performed_of_setsOtherNumber {uid : ℕ} {stream : List ℕ}
    (h : env.SetsOtherNumber uid stream) : ∃ name key value, env.IsOtherNumber value ∧
      (env.handle uid stream).performed =
        [.call name (lit "set_cgroup_item") [.str key, .str value]] := by
  obtain ⟨huid, entries, name, key, value, hrecv, hop, hmethod, hargs, hname, hkey, hvalue⟩ := h
  refine ⟨name, key, value, hvalue, ?_⟩
  have hcheck : env.checkArgs (lit "set_cgroup_item") [.str key, .str value] = .ok () := by
    have hitem : env.checkSetCgroupItem [.str key, .str value] = .ok () := by
      have hamong : isAmong writeCgroupKeys (.str key) = .ok true :=
        isAmong_eq_ok_true_iff.mpr ⟨key, hkey, rfl⟩
      simp only [checkSetCgroupItem, bind_eq_ok_iff, require_eq_ok_iff]
      exact ⟨true, hamong, (), rfl, accepts_iff.mpr (.inr hvalue)⟩
    rw [checkArgs, if_neg (by decide), if_neg (by decide), if_neg (by decide), if_neg (by decide),
      if_pos rfl]
    exact hitem
  have hcall : env.opContainerCall entries =
      .ok (.call name (lit "set_cgroup_item") [.str key, .str value]) := by
    simp only [opContainerCall, bind_eq_ok_iff]
    refine ⟨(lit "set_cgroup_item", [.str key, .str value]), ?_, name,
      containerName_eq_ok_iff.mpr hname, rfl⟩
    rw [hmethod, hargs, callArgs, hcheck]
    rfl
  have hdispatch : env.dispatch (.dict entries) =
      .ok (.call name (lit "set_cgroup_item") [.str key, .str value]) := by
    have hlookup : env.ops.lookup (lit "container_call") = some env.opContainerCall := rfl
    simp only [dispatch, hop]
    rw [if_neg (by decide), hlookup]
    exact hcall
  rw [handle, if_neg (not_not.mpr huid), hrecv]
  have hbind : (Except.ok (JsonValue.dict entries) >>= env.dispatch) =
      .ok (.call name (lit "set_cgroup_item") [.str key, .str value]) := hdispatch
  rw [hbind]
  dsimp only
  split <;> rfl

/-- **Every request is refused, or performed as an operation of the allow-list, unless it sets a
cgroup item to a number of digits that are not all ASCII.** -/
theorem handle_safe_iff (env : Env R) (uid : ℕ) (stream : List ℕ) :
    (env.handle uid stream).Safe env ↔ ¬env.SetsOtherNumber uid stream := by
  constructor
  · intro hsafe hsets
    obtain ⟨name, key, value, hother, hperformed⟩ := performed_of_setsOtherNumber hsets
    rcases hsafe with ⟨hnone, -⟩ | ⟨op, hop, hpermitted⟩
    · rw [hperformed] at hnone
      exact absurd hnone (by simp)
    · rw [hperformed, List.cons.injEq] at hop
      obtain ⟨rfl, -⟩ := hop
      obtain ⟨key', value', hargs, hvalue⟩ := PermittedCall.value hpermitted.2 rfl
      cases hargs
      exact not_isCgroupValue hother hvalue
  · intro hnot
    rw [handle]
    by_cases huid : uid ∈ env.allowedUids
    · rw [if_neg (not_not.mpr huid)]
      cases hdispatch : env.recvMessage stream >>= env.dispatch with
      | error e => cases e <;> exact .inl ⟨rfl, by simp⟩
      | ok op =>
        obtain ⟨req, hrecv, hop⟩ := bind_eq_ok_iff.mp hdispatch
        have hpermitted : Permitted env IsCgroupValue op := by
          refine Permitted.imp (permitted_of_dispatch hop) fun name method args hcall hargs => ?_
          subst hcall
          obtain ⟨entries, rfl, hfield, hmethod, hlist, hname⟩ := dispatch_call hop
          refine hargs.imp fun key value hset hitems hkey hvalue => ?_
          subst hset hitems
          refine (accepts_iff.mp hvalue).resolve_right fun hother => hnot ?_
          exact ⟨huid, entries, name, key, value, hrecv, hfield, hmethod, hlist,
            containerName_eq_ok_iff.mp hname, hkey, hother⟩
        refine .inr ⟨op, ?_, hpermitted⟩
        dsimp only
        split <;> rfl
    · rw [if_pos huid]
      exact .inl ⟨rfl, by simp⟩

/-! ## A superscript two -/

/-- A helper for root whose connections carry this request. -/
def sampleEnv (req : JsonValue) : Env Unit where
  isDigit := fun c => isAsciiDigit c || decide (c = 178)
  isDigit_ascii := fun c hc => by
    have hne : c ≠ 178 := by omega
    simp [hne]
  b64decode := fun _ => none
  loads := fun _ => some req
  container := fun _ => true
  perform := fun _ => some ()
  attachBin := lit "lxc-attach"
  allowedUids := [0]

/-- The memory limit of a container is to be a superscript two. -/
def superscriptTwo : JsonValue :=
  .dict [(lit "op", .str (lit "container_call")), (lit "name", .str (lit "c1")),
    (lit "method", .str (lit "set_cgroup_item")),
    (lit "args", .list [.str (lit "memory.max"), .str [178]])]

/-- It is set. -/
theorem superscript_two_is_set :
    ((sampleEnv superscriptTwo).handle 0 [0, 0, 0, 0]).performed =
      [.call (lit "c1") (lit "set_cgroup_item") [.str (lit "memory.max"), .str [178]]] ∧
    ¬((sampleEnv superscriptTwo).handle 0 [0, 0, 0, 0]).Safe (sampleEnv superscriptTwo) := by
  have hperformed : ((sampleEnv superscriptTwo).handle 0 [0, 0, 0, 0]).performed =
      [.call (lit "c1") (lit "set_cgroup_item") [.str (lit "memory.max"), .str [178]]] := rfl
  refine ⟨hperformed, ?_⟩
  rintro (⟨hnone, -⟩ | ⟨op, hop, hpermitted⟩)
  · rw [hperformed] at hnone
    exact absurd hnone (by simp)
  · rw [hperformed, List.cons.injEq] at hop
    obtain ⟨rfl, -⟩ := hop
    obtain ⟨key, value, hargs, hvalue⟩ := PermittedCall.value hpermitted.2 rfl
    cases hargs
    refine not_isCgroupValue (show (sampleEnv superscriptTwo).IsOtherNumber _ from
      ⟨by decide, by decide, ?_⟩) hvalue
    exact ⟨178, List.mem_cons_self, by decide⟩

end Env

end Habeny.Helper
