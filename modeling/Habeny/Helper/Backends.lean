import Habeny.Helper.Client
import Habeny.Lib.JsonAccess

/-!
# Two ways to LXC

The app reaches LXC itself when it runs as root, and through the helper otherwise; the rest of its
code is the same.  An object for a container that the app has itself holds settings in memory until
they are saved.  Of the client's object the helper makes a new one for every call.

So through the helper the app gets the results that it would get directly, and LXC comes to the
same state, whatever the threads of the app do in between; only the settings of a container's
network that it makes have no effect, as if they were not there.
-/

namespace Habeny.Helper

open Habeny.Lib CodeText JsonText Protocol Client

variable {F : FloatText} {W O : Type}

/-! ## LXC -/

/-- LXC in a state: an object for a container, and what it and its methods say and do, none where
something is raised.  Tuples are lists here, as in JSON. -/
structure Lxc (F : FloatText) (W O : Type) where
  container : W → CodeText → Option O
  listContainers : W → Bool → Bool → Option (Payload F)
  attr : W → O → CodeText → Option (Payload F)
  method : W → O → CodeText → List JsonValue → Option (Payload F) × W × O
  /-- the text of a configuration, or null where there is no such file -/
  config : W → CodeText → Option (Payload F)
  attach : W → List CodeText → ℤ → Option (List ℕ) → Option (Payload F) × W
  info : W → Option (Payload F)
  console : W → List CodeText → ℤ → ℤ → Option (Payload F) × W

/-- What an operation of the helper comes to; the object for a container is a new one. -/
def Lxc.perform (lxc : Lxc F W O) (w : W) : Operation → Option (Payload F) × W
  | .info => (lxc.info w, w)
  | .listContainers active defined => (lxc.listContainers w active defined, w)
  | .get name attr => ((lxc.container w name).bind fun o => lxc.attr w o attr, w)
  | .call name method args =>
    match lxc.container w name with
    | none => (none, w)
    | some o => ((lxc.method w o method args).1, (lxc.method w o method args).2.1)
  | .readConfig name => (lxc.config w name, w)
  | .attach cmd timeout stdin => lxc.attach w cmd timeout stdin
  | .console cmd cols rows => lxc.console w cmd cols rows

/-- Objects that have no settings of their own (`Plain`) are as good as new ones.  Settings that
are made are in the object, and a method that gives a tuple gives one. -/
structure Lxc.Regular (lxc : Lxc F W O) (Plain : W → CodeText → O → Prop) : Prop where
  new : ∀ {w name o}, lxc.container w name = some o → Plain w name o
  attr : ∀ {w name o o' a}, Plain w name o → lxc.container w name = some o' →
    lxc.attr w o a = lxc.attr w o' a
  method : ∀ {w name o o'} {m : Method}, m.isSetting = false → Plain w name o →
    lxc.container w name = some o' →
    (lxc.method w o m.name m.args).1 = (lxc.method w o' m.name m.args).1 ∧
      (lxc.method w o m.name m.args).2.1 = (lxc.method w o' m.name m.args).2.1
  own : ∀ {w name o} {m : Method}, m.isSetting = false → Plain w name o →
    Plain (lxc.method w o m.name m.args).2.1 name (lxc.method w o m.name m.args).2.2
  others : ∀ {w name name' o o'} {m : Method}, m.isSetting = false → Plain w name o →
    Plain w name' o' → Plain (lxc.method w o' m.name m.args).2.1 name o
  attach : ∀ {w name o cmd timeout stdin}, Plain w name o →
    Plain (lxc.attach w cmd timeout stdin).2 name o
  setting : ∀ {w name o} {m : Method}, m.isSetting = true → lxc.container w name = some o →
    (lxc.method w o m.name m.args).2.1 = w
  tuple : ∀ {w o p} {m : Method}, m.givesTuple = true →
    (lxc.method w o m.name m.args).1 = some p → ∃ items, p.val = .list items

/-! ## The app -/

/-- What the app does: it makes objects, which it keeps by numbers, and uses them, or asks LXC for
something else. -/
inductive Use where
  | container (h : ℕ) (name : CodeText)
  | get (h : ℕ) (attr : Attribute)
  | call (h : ℕ) (m : Method)
  | listContainers (active defined : Bool)
  | readConfig (name : CodeText)
  | attachRun (name : CodeText) (argv : List CodeText) (vars : List (CodeText × CodeText))
      (input : Option (List ℕ)) (timeout : ℤ)

def Use.isSetting : Use → Bool
  | .call _ m => m.isSetting
  | _ => false

/-- What the uses one after the other give, and the state after them. -/
def runUses {S : Type} (step : S → Use → Option JsonValue × S) :
    S → List Use → List (Use × Option JsonValue) × S
  | s, [] => ([], s)
  | s, u :: us =>
    let r := step s u
    let rest := runUses step r.2 us
    ((u, r.1) :: rest.1, rest.2)

/-- An app that has the objects itself. -/
structure Direct (W O : Type) where
  world : W
  objects : ℕ → Option (CodeText × O)

/-- An app whose objects are those of the client: they have a name. -/
structure Through (W : Type) where
  world : W
  names : ℕ → Option CodeText

/-- A use by an app that runs as root. -/
def Lxc.direct (lxc : Lxc F W O) (s : Direct W O) : Use → Option JsonValue × Direct W O
  | .container h name =>
    match lxc.container s.world name with
    | some o => (some .null, { s with objects := Function.update s.objects h (some (name, o)) })
    | none => (none, s)
  | .get h attr =>
    (((s.objects h).bind fun no => lxc.attr s.world no.2 attr.name).map Subtype.val, s)
  | .call h m =>
    match s.objects h with
    | some (name, o) =>
      let r := lxc.method s.world o m.name m.args
      (r.1.map Subtype.val, ⟨r.2.1, Function.update s.objects h (some (name, r.2.2))⟩)
    | none => (none, s)
  | .listContainers active defined =>
    ((lxc.listContainers s.world active defined).map Subtype.val, s)
  | .readConfig name =>
    -- a file that cannot be read is none
    (some ((lxc.config s.world name).elim .null Subtype.val), s)
  | .attachRun name argv vars input timeout =>
    let r := lxc.attach s.world (Ask.attachCmd (lit "lxc-attach") name argv vars) timeout input
    (r.1.map Subtype.val, { s with world := r.2 })

/-- The connection to the helper. -/
structure Link (F : FloatText) where
  base : Env (Payload F)
  uid : ℕ
  texts : Texts
  decode : Decoder
  transport : Transport
  uid_mem : uid ∈ base.allowedUids
  loads_eq : ∀ bytes, base.loads bytes = loadsBytes F decode (bytes.map UInt8.ofNat)
  b64decode_eq : ∀ text, base.b64decode text = Base64.decode text
  attachBin_eq : base.attachBin = lit "lxc-attach"

/-- The helper, with LXC in a state. -/
def Link.env (link : Link F) (lxc : Lxc F W O) (w : W) : Env (Payload F) :=
  { link.base with
    container := fun name => (lxc.container w name).isSome
    perform := fun op => (lxc.perform w op).1 }

/-- The operations that a request makes the helper perform. -/
def Link.performed (link : Link F) (lxc : Lxc F W O) (w : W) (a : Ask) : List Operation :=
  match message F a.payload with
  | none => []
  | some data => ((link.env lxc w).handle link.uid (data.map UInt8.toNat)).performed

/-- Ask the helper. -/
def Link.ask (link : Link F) (lxc : Lxc F W O) (w : W) (a : Ask) :
    Except ClientError JsonValue × W :=
  (exchange (link.env lxc w) link.uid link.texts link.decode link.transport a.payload,
    (link.performed lxc w a).foldl (fun w op => (lxc.perform w op).2) w)

/-- `tuple(value)` -/
def asTuple (v : JsonValue) : Option JsonValue := v.iter.map .list

/-- What the client asks for when it is used. -/
def Through.asks (s : Through W) : Use → Option Ask
  | .container .. => none
  | .get h attr => (s.names h).map fun name => .get name attr
  | .call h m => (s.names h).map fun name => .call name m
  | .listContainers active defined => some (.listContainers active defined)
  | .readConfig name => some (.readConfig name)
  | .attachRun name argv vars input timeout => some (.attachRun name argv vars input timeout)

/-- A use by an app that has the client. -/
def Link.through (link : Link F) (lxc : Lxc F W O) (s : Through W) (u : Use) :
    Option JsonValue × Through W :=
  match u with
  | .container h name =>
    (some .null, { s with names := Function.update s.names h (some name) })
  | _ =>
    match s.asks u with
    | none => (none, s)
    | some a =>
      let r := link.ask lxc s.world a
      let result := match a with
        | .call _ m => if m.givesTuple then r.1.toOption.bind asTuple else r.1.toOption
        | _ => r.1.toOption
      (result, { s with world := r.2 })

/-! ## Where the helper is of use -/

/-- The helper allows what is asked for, and the messages can be sent. -/
structure Link.Serves (link : Link F) (lxc : Lxc F W O) (w : W) (a : Ask) : Prop where
  allowed : a.Allowed (link.env lxc w)
  request : Sendable F a.payload
  response : Sendable F (link.texts.response (answerOf (link.env lxc w)
    (.ok (a.operation (lit "lxc-attach"))))).val

/-- A use that the helper serves; for a setting it is enough that it can be asked. -/
def Link.ServesUse (link : Link F) (lxc : Lxc F W O) (s : Through W) (u : Use) : Prop :=
  match u with
  | .container _ name => (lxc.container s.world name).isSome = true
  | .readConfig name => link.Serves lxc s.world (.readConfig name) ∧
      (lxc.config s.world name).isSome = true
  | u => ∀ a ∈ s.asks u,
      if u.isSetting then Sendable F a.payload else link.Serves lxc s.world a

def Link.ServesAll (link : Link F) (lxc : Lxc F W O) : Through W → List Use → Prop
  | _, [] => True
  | s, u :: us => link.ServesUse lxc s u ∧ link.ServesAll lxc (link.through lxc s u).2 us

/-! ## A request to the helper -/

variable {lxc : Lxc F W O} {link : Link F} {w : W} {a : Ask} {Plain : W → CodeText → O → Prop}

lemma mem_allowedUids : link.uid ∈ (link.env lxc w).allowedUids := link.uid_mem

lemma toOption_resultOf (op : Operation) :
    (link.texts.resultOf (answerOf (link.env lxc w) (.ok op))).toOption =
      ((lxc.perform w op).1).map Subtype.val := by
  have hperform : (link.env lxc w).perform op = (lxc.perform w op).1 := rfl
  rw [answerOf, hperform]
  cases (lxc.perform w op).1 <;> rfl

lemma performed_eq (h : Sendable F a.payload) :
    link.performed lxc w a = performedBy ((link.env lxc w).dispatch a.payload) := by
  obtain ⟨p, hp, hlength, hdata⟩ := h.exists_payload
  rw [Link.performed, hdata]
  dsimp only
  rw [handle_eq mem_allowedUids (recvMessage_sent link.loads_eq hlength), hp]

/-- **What is allowed is done**, and its result is what LXC gave. -/
lemma ask_of_serves (h : link.Serves lxc w a) :
    (link.ask lxc w a).1.toOption =
        ((lxc.perform w (a.operation (lit "lxc-attach"))).1).map Subtype.val ∧
      (link.ask lxc w a).2 = (lxc.perform w (a.operation (lit "lxc-attach"))).2 := by
  have hdispatch : (link.env lxc w).dispatch a.payload =
      .ok (a.operation (lit "lxc-attach")) := by
    have hdecode : ∀ text, (link.env lxc w).b64decode text = Base64.decode text :=
      link.b64decode_eq
    rw [dispatch_payload hdecode h.allowed]
    exact congrArg (fun bin => Except.ok (a.operation bin)) link.attachBin_eq
  constructor
  · rw [Link.ask, exchange_eq mem_allowedUids link.loads_eq h.request (hdispatch ▸ h.response),
      hdispatch, toOption_resultOf]
  · rw [Link.ask, performed_eq h.request, hdispatch]
    rfl

/-- **A setting that is made through the helper changes nothing**, whether it is allowed or not. -/
lemma ask_setting {name : CodeText} {m : Method} (hlxc : lxc.Regular Plain)
    (hsetting : m.isSetting = true) (h : Sendable F (Ask.call name m).payload) :
    (link.ask lxc w (.call name m)).2 = w := by
  rw [Link.ask, performed_eq h]
  cases hdispatch : (link.env lxc w).dispatch (Ask.call name m).payload with
  | error e => rfl
  | ok op =>
    have hrun := (dispatch_request (link.env lxc w).opContainerCall (by decide)
      (by rfl)).symm.trans hdispatch
    obtain ⟨name', method', args', rfl, hmethod, hargs, -, hname⟩ := Env.opContainerCall_ok hrun
    obtain ⟨hfield, -, hopens⟩ := Env.containerName_eq_ok_iff.mp hname
    simp (disch := decide) only [Env.field, lookup_cons_ne, List.lookup_cons_self,
      Option.getD_some, JsonValue.str.injEq, JsonValue.list.injEq] at hmethod hargs hfield
    subst hmethod hargs hfield
    obtain ⟨o, ho⟩ := Option.isSome_iff_exists.mp hopens
    show (lxc.perform w (.call name m.name m.args)).2 = w
    rw [Lxc.perform, ho]
    exact hlxc.setting hsetting ho

/-! ## The same results -/

/-- The two apps see the same LXC, and their objects have the same names; those that the one has
itself have no settings of their own. -/
structure Alike (Plain : W → CodeText → O → Prop) (d : Direct W O) (t : Through W) : Prop where
  world_eq : d.world = t.world
  names_eq : ∀ h, (d.objects h).map Prod.fst = t.names h
  plain : ∀ h name o, d.objects h = some (name, o) → Plain d.world name o

variable {d : Direct W O} {t : Through W} {u : Use}

lemma Alike.exists_object (hd : Alike Plain d t) {h : ℕ} {name : CodeText}
    (hname : t.names h = some name) : ∃ o, d.objects h = some (name, o) := by
  obtain ⟨⟨name', o⟩, ho, rfl⟩ := Option.map_eq_some_iff.mp ((hd.names_eq h).trans hname)
  exact ⟨o, ho⟩

lemma Alike.objects_eq_none (hd : Alike Plain d t) {h : ℕ} (hname : t.names h = none) :
    d.objects h = none :=
  Option.map_eq_none_iff.mp ((hd.names_eq h).trans hname)

/-- A use gives both apps the same and leaves them alike. -/
structure SameStep (Plain : W → CodeText → O → Prop) (r : Option JsonValue × Direct W O)
    (r' : Option JsonValue × Through W) : Prop where
  result_eq : r'.1 = r.1
  alike : Alike Plain r.2 r'.2

lemma same_container (hlxc : lxc.Regular Plain) (hd : Alike Plain d t) {h : ℕ}
    {name : CodeText} (hopens : (lxc.container t.world name).isSome = true) :
    SameStep Plain (lxc.direct d (.container h name)) (link.through lxc t (.container h name)) := by
  obtain ⟨o, ho⟩ := Option.isSome_iff_exists.mp hopens
  rw [← hd.world_eq] at ho
  rw [Lxc.direct, Link.through, ho]
  refine ⟨rfl, hd.world_eq, fun h' => ?_, fun h' name' o' ho' => ?_⟩
  · by_cases hh : h' = h
    · subst hh
      simp only [Function.update_self, Option.map_some]
    · simp only [Function.update_of_ne hh]
      exact hd.names_eq h'
  · by_cases hh : h' = h
    · subst hh
      simp only [Function.update_self, Option.some.injEq, Prod.mk.injEq] at ho'
      obtain ⟨rfl, rfl⟩ := ho'
      exact hlxc.new ho
    · simp only [Function.update_of_ne hh] at ho'
      exact hd.plain h' name' o' ho'

lemma same_get (hlxc : lxc.Regular Plain) (hd : Alike Plain d t) {h : ℕ} {attr : Attribute}
    (hserves : link.ServesUse lxc t (.get h attr)) :
    SameStep Plain (lxc.direct d (.get h attr)) (link.through lxc t (.get h attr)) := by
  cases hname : t.names h with
  | none =>
    simp only [Lxc.direct, Link.through, Through.asks, hname, hd.objects_eq_none hname]
    exact ⟨rfl, hd⟩
  | some name =>
    obtain ⟨o, ho⟩ := hd.exists_object hname
    have hs : link.Serves lxc t.world (.get name attr) :=
      hserves _ (by rw [Through.asks, hname]; rfl)
    obtain ⟨hresult, hworld⟩ := ask_of_serves hs
    obtain ⟨o', ho'⟩ := Option.isSome_iff_exists.mp hs.allowed.2
    have hsame := hlxc.attr (a := attr.name) (hd.plain h name o ho) (hd.world_eq ▸ ho')
    simp only [Lxc.direct, Link.through, Through.asks, hname, ho, Option.map_some,
      Option.bind_some]
    refine ⟨?_, ?_, hd.names_eq, hd.plain⟩
    · rw [hresult, Ask.operation, Lxc.perform, ho', hsame, hd.world_eq]
      rfl
    · rw [hworld]
      exact hd.world_eq

/-- The client makes a tuple of what is one. -/
lemma asTuple_of_tuple {result : Option (Payload F)} {m : Method}
    (h : m.givesTuple = true → ∀ p, result = some p → ∃ items, p.val = .list items) :
    (if m.givesTuple then (result.map Subtype.val).bind asTuple else result.map Subtype.val) =
      result.map Subtype.val := by
  cases hm : m.givesTuple with
  | false => rfl
  | true =>
    cases result with
    | none => rfl
    | some p =>
      obtain ⟨items, hitems⟩ := h hm p rfl
      rw [if_pos rfl, Option.map_some, Option.bind_some, hitems]
      rfl

lemma same_call (hlxc : lxc.Regular Plain) (hd : Alike Plain d t) {h : ℕ} {m : Method}
    (hm : m.isSetting = false) (hserves : link.ServesUse lxc t (.call h m)) :
    SameStep Plain (lxc.direct d (.call h m)) (link.through lxc t (.call h m)) := by
  cases hname : t.names h with
  | none =>
    simp only [Lxc.direct, Link.through, Through.asks, hname, hd.objects_eq_none hname]
    exact ⟨rfl, hd⟩
  | some name =>
    obtain ⟨o, ho⟩ := hd.exists_object hname
    have hs : link.Serves lxc t.world (.call name m) := by
      have hask := hserves (.call name m) (by rw [Through.asks, hname]; rfl)
      rwa [if_neg (by rw [Use.isSetting, hm]; decide)] at hask
    obtain ⟨hresult, hworld⟩ := ask_of_serves hs
    obtain ⟨o', ho'⟩ := Option.isSome_iff_exists.mp hs.allowed.1.2
    rw [Ask.operation, Lxc.perform, ho', ← hd.world_eq] at hresult hworld
    obtain ⟨hsame, hsameWorld⟩ := hlxc.method hm (hd.plain h name o ho) (hd.world_eq ▸ ho')
    dsimp only at hresult hworld
    rw [← hsame] at hresult
    rw [← hsameWorld] at hworld
    simp only [Lxc.direct, Link.through, Through.asks, hname, ho, Option.map_some]
    rw [← hd.world_eq]
    refine ⟨?_, hworld.symm, fun h' => ?_, fun h' name' o'' ho'' => ?_⟩
    · dsimp only
      rw [hresult]
      exact asTuple_of_tuple fun htuple p hp => hlxc.tuple htuple hp
    · by_cases hh : h' = h
      · subst hh
        simp only [Function.update_self, Option.map_some, hname]
      · simp only [Function.update_of_ne hh]
        exact hd.names_eq h'
    · by_cases hh : h' = h
      · subst hh
        simp only [Function.update_self, Option.some.injEq, Prod.mk.injEq] at ho''
        obtain ⟨rfl, rfl⟩ := ho''
        exact hlxc.own hm (hd.plain h' name o ho)
      · simp only [Function.update_of_ne hh] at ho''
        exact hlxc.others hm (hd.plain h' name' o'' ho'') (hd.plain h name o ho)

/-- **A use that is no setting** gives both apps the same. -/
lemma same_step (hlxc : lxc.Regular Plain) (hd : Alike Plain d t) (hu : u.isSetting = false)
    (hserves : link.ServesUse lxc t u) :
    SameStep Plain (lxc.direct d u) (link.through lxc t u) := by
  cases u with
  | container h name => exact same_container hlxc hd hserves
  | get h attr => exact same_get hlxc hd hserves
  | call h m => exact same_call hlxc hd hu hserves
  | listContainers active defined =>
    obtain ⟨hresult, hworld⟩ := ask_of_serves (hserves (.listContainers active defined) rfl)
    simp only [Lxc.direct, Link.through, Through.asks]
    refine ⟨?_, hd.world_eq.trans hworld.symm, hd.names_eq, hd.plain⟩
    rw [hresult, hd.world_eq]
    rfl
  | readConfig name =>
    obtain ⟨hserved, hreads⟩ := hserves
    obtain ⟨hresult, hworld⟩ := ask_of_serves hserved
    obtain ⟨p, hp⟩ := Option.isSome_iff_exists.mp hreads
    simp only [Lxc.direct, Link.through, Through.asks]
    refine ⟨?_, hd.world_eq.trans hworld.symm, hd.names_eq, hd.plain⟩
    rw [hresult, hd.world_eq, Ask.operation, Lxc.perform, hp]
    rfl
  | attachRun name argv vars input timeout =>
    obtain ⟨hresult, hworld⟩ :=
      ask_of_serves (hserves (.attachRun name argv vars input timeout) rfl)
    rw [Ask.operation, Lxc.perform, ← hd.world_eq] at hresult hworld
    simp only [Lxc.direct, Link.through, Through.asks]
    rw [← hd.world_eq]
    exact ⟨hresult, hworld.symm, hd.names_eq,
      fun h name' o ho => hlxc.attach (hd.plain h name' o ho)⟩

/-- **A setting** that the app makes through the helper leaves it as it was. -/
lemma through_setting (hlxc : lxc.Regular Plain) (hu : u.isSetting = true)
    (hserves : link.ServesUse lxc t u) : (link.through lxc t u).2 = t := by
  cases u with
  | call h m =>
    cases hname : t.names h with
    | none => simp only [Link.through, Through.asks, hname, Option.map_none]
    | some name =>
      have hsend : Sendable F (Ask.call name m).payload := by
        have hask := hserves (.call name m) (by rw [Through.asks, hname]; rfl)
        rwa [if_pos (by exact hu)] at hask
      simp only [Link.through, Through.asks, hname, Option.map_some]
      rw [ask_setting hlxc hu hsend]
  | _ => cases hu

/-- The settings are left out. -/
def withoutSettings (uses : List Use) : List Use := uses.filter fun u => !u.isSetting

/-- The setting that makes a container's network macvlan. -/
def isMacvlan : List JsonValue → Bool
  | [.str key, .str value] => decide (key = lit "lxc.net.0.type" ∧ value = lit "macvlan")
  | _ => false

/-- One container, with a file that says whether its network is macvlan; an object has the setting
that was made with it. -/
def oneContainer : Lxc wholeFloats Bool (Option Bool) where
  container _ name := if isContainerName name then some none else none
  listContainers _ _ _ := some ⟨.list [], trivial⟩
  attr _ _ _ := some ⟨.bool true, trivial⟩
  method w o name args :=
    if name = lit "save_config" then (some ⟨.bool true, trivial⟩, o.getD w, none)
    else if name = lit "set_config_item" ∧ isMacvlan args = true then
      (some ⟨.bool true, trivial⟩, w, some true)
    else (some ⟨.list [], trivial⟩, w, o)
  config
    | true, _ => some ⟨.str (lit "macvlan"), by decide, by decide⟩
    | false, _ => some ⟨.str (lit "veth"), by decide, by decide⟩
  attach w _ _ _ := (some ⟨.null, trivial⟩, w)
  info _ := some ⟨.null, trivial⟩
  console w _ _ _ := (some ⟨.null, trivial⟩, w)

lemma isSetting_of_name {m : Method} (h : m.name = lit "set_config_item") :
    m.isSetting = true ∧ m.givesTuple = false := by
  cases m with
  | setConfigItem key value => exact ⟨rfl, rfl⟩
  | _ => exact absurd h (by rw [Method.name]; decide)

lemma not_isSetting_of_name {m : Method} (h : m.name = lit "save_config") :
    m.isSetting = false ∧ m.givesTuple = false := by
  cases m with
  | saveConfig => exact ⟨rfl, rfl⟩
  | _ => exact absurd h (by rw [Method.name]; decide)

lemma regular_oneContainer : oneContainer.Regular fun _ _ o => o = none where
  new := by
    intro w name o h
    rw [oneContainer] at h
    dsimp only at h
    split_ifs at h
    exact (Option.some.inj h).symm
  attr := fun _ _ => rfl
  method := by
    rintro w name o o' m hm rfl ho'
    rw [oneContainer] at ho'
    dsimp only at ho'
    split_ifs at ho'
    obtain rfl := Option.some.inj ho'
    exact ⟨rfl, rfl⟩
  own := by
    rintro w name o m hm rfl
    rw [oneContainer]
    dsimp only
    split_ifs with hsave hset
    · rfl
    · exact absurd (isSetting_of_name hset.1).1 (by rw [hm]; decide)
    · rfl
  others := fun _ h _ => h
  attach := fun h => h
  setting := by
    intro w name o m hm _
    rw [oneContainer]
    dsimp only
    split_ifs with hsave hset
    · exact absurd (not_isSetting_of_name hsave).1 (by rw [hm]; decide)
    · rfl
    · rfl
  tuple := by
    intro w o p m hm hp
    rw [oneContainer] at hp
    dsimp only at hp
    split_ifs at hp with hsave hset
    · exact absurd (not_isSetting_of_name hsave).2 (by rw [hm]; decide)
    · exact absurd (isSetting_of_name hset.1).2 (by rw [hm]; decide)
    · rw [Option.some.injEq] at hp
      exact ⟨[], by rw [← hp]⟩

/-- A helper that one user may ask; its answers arrive byte by byte. -/
def plainLink : Link wholeFloats where
  base :=
    { isDigit := isAsciiDigit
      isDigit_ascii := fun _ _ => rfl
      b64decode := Base64.decode
      loads := fun bytes => loadsBytes wholeFloats (fun _ => none) (bytes.map UInt8.ofNat)
      container := fun _ => true
      perform := fun _ => none
      attachBin := lit "lxc-attach"
      allowedUids := [1000] }
  uid := 1000
  texts :=
    { str := fun v => v.text?.getD []
      str_str := fun _ => rfl
      refusal := fun _ => ⟨lit "refused", by decide, by decide⟩
      raised := ⟨lit "raised", by decide, by decide⟩ }
  decode := fun _ => none
  transport :=
    { arrives := fun b => ⟨b.map fun x => ⟨[x], List.cons_ne_nil _ _⟩, [], 0⟩
      bytes_eq := by
        intro b
        rw [Socket.bytes, List.map_map]
        induction b with
        | nil => rfl
        | cons x b ih => rw [List.map_cons, List.flatten_cons, ih]; rfl }
  uid_mem := List.mem_singleton_self _
  loads_eq := fun _ => rfl
  b64decode_eq := fun _ => rfl
  attachBin_eq := rfl

/-- What a deployment does to a container whose agent must have an address of its own. -/
def makeMacvlan : List Use :=
  [.container 0 (lit "c"), .call 0 (.setConfigItem (lit "lxc.net.0.type") (lit "macvlan")),
    .call 0 .saveConfig, .readConfig (lit "c")]

lemma sendable_request {op : String} {fields : JsonEntries}
    (hkeys : (lit "op" :: fields.map Prod.fst).Nodup) (hop : IsJoined (lit op))
    (hfields : EntriesArePayloads F fields)
    (hlength : (text F (request op fields)).length ≤ maxMessage) :
    Sendable F (request op fields) :=
  ⟨⟨hkeys, ⟨by decide, by decide⟩, hop, hfields⟩, hlength⟩

/-- What the container's methods answer can be sent. -/
lemma serves_oneContainer {s : Through Bool} (h : s.names 0 = some (lit "c")) :
    plainLink.ServesUse oneContainer s (.call 0 .saveConfig) ∧
      plainLink.ServesUse oneContainer s (.readConfig (lit "c")) := by
  have hc : IsContainer (plainLink.env oneContainer s.world) (lit "c") := ⟨by decide, rfl⟩
  refine ⟨fun a ha => ?_, ⟨hc, ?_, ?_⟩, ?_⟩
  · rw [Through.asks, h] at ha
    obtain rfl := Option.some.inj ha
    refine ⟨⟨hc, trivial⟩, sendable_request (by decide) ⟨by decide, by decide⟩
      ⟨⟨by decide, by decide⟩, ⟨by decide, by decide⟩, ⟨by decide, by decide⟩,
        ⟨by decide, by decide⟩, ⟨by decide, by decide⟩, trivial, trivial⟩ (by decide), ?_, ?_⟩
    · exact Subtype.property _
    · show (text wholeFloats
        (.dict [(lit "ok", .bool true), (lit "result", .bool true)])).length ≤ _
      decide
  · exact sendable_request (by decide) ⟨by decide, by decide⟩
      ⟨⟨by decide, by decide⟩, ⟨by decide, by decide⟩, trivial⟩ (by decide)
  · refine ⟨Subtype.property _, ?_⟩
    cases hw : s.world with
    | true =>
      show (text wholeFloats
        (.dict [(lit "ok", .bool true), (lit "result", .str (lit "macvlan"))])).length ≤ _
      decide
    | false =>
      show (text wholeFloats
        (.dict [(lit "ok", .bool true), (lit "result", .str (lit "veth"))])).length ≤ _
      decide
  · cases s.world <;> rfl

lemma serves_makeMacvlan :
    plainLink.ServesAll oneContainer ⟨false, fun _ => none⟩ makeMacvlan := by
  have hsetting : plainLink.ServesUse oneContainer
      ⟨false, Function.update (fun _ => none) 0 (some (lit "c"))⟩
      (.call 0 (.setConfigItem (lit "lxc.net.0.type") (lit "macvlan"))) := by
    intro a ha
    obtain rfl := Option.some.inj ha
    exact sendable_request (by decide) ⟨by decide, by decide⟩
      ⟨⟨by decide, by decide⟩, ⟨by decide, by decide⟩, ⟨by decide, by decide⟩,
        ⟨by decide, by decide⟩, ⟨by decide, by decide⟩,
        ⟨⟨by decide, by decide⟩, ⟨by decide, by decide⟩, trivial⟩, trivial⟩ (by decide)
  have hkept := through_setting regular_oneContainer rfl hsetting
  have hserves := serves_oneContainer
    (s := ⟨false, Function.update (fun _ => none) 0 (some (lit "c"))⟩) rfl
  refine ⟨by rfl, hsetting, ?_, ?_, trivial⟩
  · exact hkept.symm ▸ hserves.1
  · exact (serves_oneContainer rfl).2

end Habeny.Helper
