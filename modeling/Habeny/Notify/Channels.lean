import Habeny.Notify.Settings
import Mathlib.Data.List.Dedup
import Mathlib.Data.List.Sort

/-!
# Changing a notification channel

A request to change a channel gives its settings, and leaves blank the secret ones that are to stay
as they are: these are decrypted, put together with what is given, checked, and encrypted again.
`update_keeps` says what an update that is not refused keeps and what it changes.  A secret of a
webhook that cannot be read is no longer there afterwards (`secret_lost`).
-/

namespace Habeny.Notify

open Habeny.Lib Secrets CodeText

/-! ## Channels -/

/-- `EVENTS` -/
def events : List Text :=
  ["deployment.finished".toList, "simulation.finished".toList, "benchmark.finished".toList,
    "alert.firing".toList, "alert.resolved".toList]

/-- A row of the table, whose settings and events are written as JSON. -/
structure ChannelRow where
  name : Text
  type : ChannelType
  config : Dict CodeText JsonValue
  events : List Text
  onlyProblems : Bool
  enabled : Bool
  createdAt : Text
  updatedAt : Text
  lastSentAt : Option Text
  lastStatus : Option Text
  lastError : Option Text

/-- What a request gives. -/
structure ChannelUpdate where
  name : Text
  settings : Dict CodeText JsonValue
  events : List Text
  onlyProblems : Bool
  enabled : Bool

/-- Texts with a comma between them. -/
def joined : List Text → Text
  | [] => []
  | [t] => t
  | t :: ts => t ++ ", ".toList ++ joined ts

/-- The events of a request, each once and in order (`_check_events`). -/
def checkEvents (given : List Text) : Except Failure (List Text) :=
  let unknown := given.filter fun e => decide (e ∉ events)
  if unknown ≠ [] then .error (.channel ("unknown events: ".toList ++ joined unknown))
  else .ok (given.dedup.insertionSort (· ≤ ·))

variable {F : Fernet} (cipher : Except SecretError F.Key)

/-- A text before the first occurrence of another, and what follows it. -/
def cutAt (sep : CodeText) : CodeText → Option (CodeText × CodeText)
  | [] => none
  | c :: t =>
    if sep <+: c :: t then some ([], (c :: t).drop sep.length)
    else (cutAt sep t).map fun parts => (c :: parts.1, parts.2)

def dots : JsonValue := .str (lit "••••••")

/-- Enough to recognise a setting without revealing it (`_hint`). -/
def hint (k : CodeText) (v : JsonValue) : Except Failure JsonValue :=
  if !v.truthy then .ok (.str [])
  else if k ≠ urlKey then .ok dots
  else
    match v with
    | .str u =>
      match cutAt (lit "://") u with
      | none => .ok dots
      | some (scheme, rest) =>
        let host := ((cutAt (lit "/") rest).map Prod.fst).getD rest
        .ok (.str (scheme ++ lit "://" ++ host ++ lit "/…"))
    | .list items =>
      if items.any fun w => decide (w.text? = some (lit "://")) then .error .attributeError
      else .ok dots
    | .dict es =>
      if es.any fun e => decide (e.1 = lit "://") then .error .attributeError else .ok dots
    | _ => .error .typeError

/-- A row as it is shown (`_row`). -/
def publicChannel (row : ChannelRow) : Except Failure ChannelRow :=
  (eachField (fun k v => match decryptSetting cipher v with
      | .error e => .error e
      | .ok plain => hint k plain) (secretFields row.type) row.config).map
    fun config => { row with config := config }

/-- The settings of a request that are not left blank. -/
def given (settings : Dict CodeText JsonValue) (k : CodeText) : Option JsonValue :=
  match settings.get k with
  | none | some .null | some (.str []) => none
  | some v => some v

/-- `{**current, **given}` -/
def merged (current settings : Dict CodeText JsonValue) : Dict CodeText JsonValue :=
  current.setEach (given settings) settings.keys

/-- The name of a channel is unique. -/
def nameTaken (t : Dict ℕ ChannelRow) (id : ℕ) (name : Text) : Bool :=
  t.keys.any fun id' => decide (id' ≠ id) && (t.get id').any fun row => decide (row.name = name)

variable (G : JsonText.FloatText) [DecidablePred G.isFloat] (env : NotifyEnv)
  (coins : CodeText → F.Coins)

/-- The row with what is written by an update. -/
def ChannelRow.updated (row : ChannelRow) (req : ChannelUpdate) (now : Text)
    (config : Dict CodeText JsonValue) (checked : List Text) : ChannelRow :=
  { row with
    name := req.name
    config := config
    events := checked
    onlyProblems := req.onlyProblems
    enabled := req.enabled
    updatedAt := now }

/-- The row that an update writes, if nothing raises before. -/
def updatedRow (req : ChannelUpdate) (now : Text) (row : ChannelRow) : Except Failure ChannelRow :=
  match revealSettings cipher row.type row.config with
  | .error e => .error e
  | .ok current =>
    match validate G env row.type (merged current req.settings) with
    | .error e => .error e
    | .ok cleaned =>
      match storeSettings cipher coins row.type cleaned with
      | .error e => .error e
      | .ok config => (checkEvents req.events).map fun checked => row.updated req now config checked

/-- Secret fields left empty keep their stored value (`update_channel`). -/
def updateChannel (t : Dict ℕ ChannelRow) (id : ℕ) (req : ChannelUpdate) (now : Text) :
    Except Failure (Option ChannelRow) × Dict ℕ ChannelRow :=
  match t.get id with
  | none => (.ok none, t)
  | some row =>
    match updatedRow cipher G env coins req now row with
    | .error e => (.error e, t)
    | .ok row' =>
      if nameTaken t id req.name then
        (.error (.channel ("a channel named '".toList ++ req.name ++ "' exists".toList)), t)
      else ((publicChannel cipher row').map some, t.set id row')

/-! ## What an update keeps -/

/-- What is read of a setting of a channel. -/
def Reads (row : ChannelRow) (k : CodeText) (v : JsonValue) : Prop :=
  readSetting cipher row.type row.config k = .ok (some v)

/-- What is kept of the recipients that are given or were there. -/
def Kept (v kept : JsonValue) : Prop :=
  ∃ items, recipients v = .ok items ∧ firstRecipients v items = .ok kept

/-- What an update makes of a channel. -/
structure Updated (req : ChannelUpdate) (now : Text) (row row' : ChannelRow) : Prop where
  fields : row' = { row with
    name := req.name
    config := row'.config
    events := row'.events
    onlyProblems := req.onlyProblems
    enabled := req.enabled
    updatedAt := now }
  events : row'.events.Nodup ∧ ∀ e, e ∈ row'.events ↔ e ∈ req.events
  url_given : row.type ≠ .email → ∀ v, given req.settings urlKey = some v →
    ∃ u, v = .str u ∧ Reads cipher row' urlKey (.str (strip u))
  url_kept : row.type ≠ .email → given req.settings urlKey = none →
    ∃ u, Reads cipher row urlKey (.str u) ∧ Reads cipher row' urlKey (.str (strip u))
  secret_given : row.type = .webhook → ∀ v, given req.settings secretKey = some v →
    v.truthy = true → ∃ s, cleanSecret G env v = .ok s ∧
      (s ≠ [] → ¬Marked s → Reads cipher row' secretKey (.str s))
  secret_kept : row.type = .webhook → given req.settings secretKey = none →
    ∀ s, Reads cipher row secretKey (.str s) → s ≠ [] → ¬Marked (s.take 200) →
      Reads cipher row' secretKey (.str (s.take 200))
  to_given : row.type = .email → ∀ v, given req.settings toKey = some v →
    ∃ kept, Kept v kept ∧ Reads cipher row' toKey kept
  to_kept : row.type = .email → given req.settings toKey = none →
    ∃ v kept, Reads cipher row toKey v ∧ Kept v kept ∧ Reads cipher row' toKey kept

variable {cipher G env coins} {t : Dict ℕ ChannelRow} {id : ℕ} {req : ChannelUpdate} {now : Text}

/-- What is given goes before what was there. -/
lemma merged_get (current settings : Dict CodeText JsonValue) (k : CodeText) :
    (merged current settings).get k = (given settings k).or (current.get k) := by
  rw [merged, Dict.get_setEach]
  split_ifs with hmem
  · rfl
  · have hnone : settings.get k = none := by
      rw [← Option.not_isSome_iff_eq_none, ← settings.mem_keys]
      exact hmem
    rw [given, hnone]
    rfl

lemma checkEvents_spec {given checked : List Text} (h : checkEvents given = .ok checked) :
    checked.Nodup ∧ ∀ e, e ∈ checked ↔ e ∈ given := by
  unfold checkEvents at h
  dsimp only at h
  split_ifs at h
  obtain rfl := Except.ok.inj h
  have hperm := List.perm_insertionSort (· ≤ ·) given.dedup
  exact ⟨hperm.nodup_iff.mpr given.nodup_dedup, fun e => hperm.mem_iff.trans List.mem_dedup⟩

/-- The parts of a row that is written. -/
lemma updatedRow_eq_ok {row row' : ChannelRow}
    (h : updatedRow cipher G env coins req now row = .ok row') :
    ∃ current cleaned config checked,
      revealSettings cipher row.type row.config = .ok current ∧
        validate G env row.type (merged current req.settings) = .ok cleaned ∧
        storeSettings cipher coins row.type cleaned = .ok config ∧
        checkEvents req.events = .ok checked ∧ row' = row.updated req now config checked := by
  unfold updatedRow at h
  cases hreveal : revealSettings cipher row.type row.config with
  | error e => simp [hreveal] at h
  | ok current =>
    rw [hreveal] at h
    dsimp only at h
    cases hvalidate : validate G env row.type (merged current req.settings) with
    | error e => simp [hvalidate] at h
    | ok cleaned =>
      rw [hvalidate] at h
      dsimp only at h
      cases hstore : storeSettings cipher coins row.type cleaned with
      | error e => simp [hstore] at h
      | ok config =>
        rw [hstore] at h
        dsimp only at h
        cases hevents : checkEvents req.events with
        | error e => simp [hevents, Except.map] at h
        | ok checked =>
          rw [hevents] at h
          exact ⟨current, cleaned, config, checked, rfl, hvalidate, hstore, rfl,
            (Except.ok.inj h).symm⟩

/-- What is left blank is as it is read. -/
lemma reads_of_blank {row : ChannelRow} {current : Dict CodeText JsonValue} {k : CodeText}
    {v : JsonValue} (hreveal : revealSettings cipher row.type row.config = .ok current)
    (hblank : given req.settings k = none) (hget : (merged current req.settings).get k = some v) :
    Reads cipher row k v := by
  rw [merged_get, hblank, Option.none_or] at hget
  rw [Reads, readSetting_of_reveal hreveal, hget]

/-- What is read of what is left blank goes into the settings. -/
lemma merged_of_reads {row : ChannelRow} {current : Dict CodeText JsonValue} {k : CodeText}
    {v : JsonValue} (hreveal : revealSettings cipher row.type row.config = .ok current)
    (hblank : given req.settings k = none) (hreads : Reads cipher row k v) :
    (merged current req.settings).get k = some v := by
  rw [merged_get, hblank, Option.none_or]
  rw [Reads, readSetting_of_reveal hreveal] at hreads
  exact Except.ok.inj hreads

lemma urlKey_mem {type : ChannelType} (h : type ≠ .email) : urlKey ∈ secretFields type := by
  cases type with
  | email => exact absurd rfl h
  | slack => exact List.mem_singleton_self urlKey
  | webhook => exact List.mem_cons_self

/-- **What an update keeps of a channel, and what it makes of it.** -/
lemma updated_of_updatedRow {row row' : ChannelRow}
    (h : updatedRow cipher G env coins req now row = .ok row') :
    Updated cipher G env req now row row' := by
  obtain ⟨current, cleaned, config, checked, hreveal, hvalidate, hstore, hevents, rfl⟩ :=
    updatedRow_eq_ok h
  have hurl : row.type ≠ .email → ∃ u, (merged current req.settings).get urlKey = some (.str u) ∧
      Reads cipher (row.updated req now config checked) urlKey (.str (strip u)) := by
    intro htype
    obtain ⟨u, hget, hisUrl, hcleaned, -⟩ := validate_url htype hvalidate
    exact ⟨u, hget, readSetting_of_store (urlKey_mem htype) hcleaned (isUrl_ne_nil hisUrl)
      (not_marked_of_isUrl hisUrl) hstore⟩
  have hsecret : row.type = .webhook → ∀ v, (merged current req.settings).get secretKey = some v →
      v.truthy = true → ∃ s, cleanSecret G env v = .ok s ∧ (s ≠ [] → ¬Marked s →
        Reads cipher (row.updated req now config checked) secretKey (.str s)) := by
    intro htype v hget htruthy
    obtain ⟨-, -, -, -, hcleaned⟩ := validate_url (by rw [htype]; decide) hvalidate
    rw [hget, Option.getD_some, if_pos ⟨htype, htruthy⟩] at hcleaned
    obtain ⟨s, hs, hcleaned⟩ := hcleaned
    have hmem : secretKey ∈ secretFields row.type := by rw [htype]; decide
    exact ⟨s, hs, fun hne hmarked => readSetting_of_store hmem hcleaned hne hmarked hstore⟩
  have hto : row.type = .email → ∃ v kept, (merged current req.settings).get toKey = some v ∧
      Kept v kept ∧ Reads cipher (row.updated req now config checked) toKey kept := by
    intro htype
    rw [htype] at hvalidate
    obtain ⟨items, kept, hitems, hne, hkept, hcleaned⟩ := validate_to hvalidate
    have hmem : toKey ∉ secretFields row.type := by rw [htype]; exact List.not_mem_nil
    have hreads : Reads cipher (row.updated req now config checked) toKey kept :=
      (readSetting_of_store_of_not_mem hmem hstore).trans (congrArg _ hcleaned)
    cases hget : (merged current req.settings).get toKey with
    | none =>
      rw [hget] at hitems
      exact absurd (Except.ok.inj hitems).symm hne
    | some v =>
      rw [hget] at hitems hkept
      exact ⟨v, kept, rfl, ⟨items, hitems, hkept⟩, hreads⟩
  exact
    { fields := rfl
      events := checkEvents_spec hevents
      url_given := fun htype v hv => by
        obtain ⟨u, hget, hreads⟩ := hurl htype
        rw [merged_get, hv, Option.some_or, Option.some.injEq] at hget
        exact ⟨u, hget, hreads⟩
      url_kept := fun htype hblank => by
        obtain ⟨u, hget, hreads⟩ := hurl htype
        exact ⟨u, reads_of_blank hreveal hblank hget, hreads⟩
      secret_given := fun htype v hv => hsecret htype v (by rw [merged_get, hv, Option.some_or])
      secret_kept := fun htype hblank s hs hne hmarked => by
        obtain ⟨text, htext, hreads⟩ := hsecret htype (.str s)
          (merged_of_reads hreveal hblank hs) (truthy_str.mpr hne)
        obtain rfl : s.take 200 = text := Except.ok.inj htext
        exact hreads (by simp [hne]) hmarked
      to_given := fun htype v hv => by
        obtain ⟨w, kept, hget, hkept, hreads⟩ := hto htype
        rw [merged_get, hv, Option.some_or, Option.some.injEq] at hget
        exact ⟨kept, hget ▸ hkept, hreads⟩
      to_kept := fun htype hblank => by
        obtain ⟨v, kept, hget, hkept, hreads⟩ := hto htype
        exact ⟨v, kept, reads_of_blank hreveal hblank hget, hkept, hreads⟩ }

/-- **A secret of a webhook that cannot be read is lost** when it is left blank. -/
theorem secret_lost {row row' : ChannelRow} (htype : row.type = .webhook)
    (hblank : given req.settings secretKey = none) (hreads : Reads cipher row secretKey .null)
    (h : updatedRow cipher G env coins req now row = .ok row') :
    readSetting cipher row'.type row'.config secretKey = .ok none := by
  obtain ⟨current, cleaned, config, checked, hreveal, hvalidate, hstore, -, rfl⟩ :=
    updatedRow_eq_ok h
  obtain ⟨-, -, -, -, hcleaned⟩ := validate_url (by rw [htype]; decide) hvalidate
  rw [merged_of_reads hreveal hblank hreads, if_neg (by simp [JsonValue.truthy])] at hcleaned
  exact readSetting_of_store_of_none hcleaned hstore

/-! ## A lost secret -/

def noFloat : JsonText.FloatText where
  isFloat := fun _ => False
  repr := fun _ => []
  read := fun _ => .nan
  isFloatText := fun _ h => h.elim
  read_repr := fun _ h => h.elim

instance : DecidablePred noFloat.isFloat := fun _ => inferInstanceAs (Decidable False)

def quietEnv : NotifyEnv where
  mailServer := false
  printables := ⟨fun _ => false, fun _ _ => rfl⟩
  depth := 0

/-- A token of a text under a key, as it is stored. -/
def storedUnder (key : Bool) (s : String) : JsonValue :=
  .str (points (mark ++ twoKeys.encrypt key () (Lib.Utf8.encode s.toList)))

/-- A webhook of which the secret settings were stored under another key than the one in use. -/
def oldKeyHook : ChannelRow where
  name := ['n']
  type := .webhook
  config := (Dict.empty.set urlKey (storedUnder true "http://a")).set secretKey (storedUnder true "s")
  events := []
  onlyProblems := true
  enabled := true
  createdAt := ['0']
  updatedAt := ['0']
  lastSentAt := none
  lastStatus := none
  lastError := none

/-- A request that gives the address, with a blank before it, and leaves the secret blank. -/
def newAddress : ChannelUpdate where
  name := ['n']
  settings := (Dict.empty.set urlKey (.str (lit " http://b"))).set secretKey (.str [])
  events := []
  onlyProblems := true
  enabled := true

end Habeny.Notify
