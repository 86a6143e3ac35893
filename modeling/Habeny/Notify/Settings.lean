import Habeny.Lib.Dict
import Habeny.Lib.PyRepr
import Habeny.Secrets.Cipher

/-!
# The settings of a notification channel

A channel is told where to send by its settings, which are checked and cleaned for its kind; what
is not known there is left out.  The secret ones among them are stored encrypted.

Storing and reading go through the fields one after another (`eachField`); what comes of a field
does not depend on the others (`eachField_get`).  A secret that is stored is read, if it does not
begin with the mark (`decryptSetting_of_encryptSetting`).
-/

namespace Habeny.Notify

open Habeny.Lib Secrets CodeText
open JsonText (code)

/-! ## Texts -/

/-- The characters of a text that can be encoded. -/
def characters (t : CodeText) : Option Text :=
  if ∀ c ∈ t, c.isValidChar then some (t.map Char.ofNat) else none

def points (s : Text) : CodeText := s.map Char.toNat

lemma characters_points (s : Text) : characters (points s) = some s := by
  have hvalid : ∀ c ∈ points s, c.isValidChar := by
    intro c hc
    obtain ⟨d, -, rfl⟩ := List.mem_map.mp hc
    exact d.valid
  rw [characters, if_pos hvalid, points, List.map_map, Option.some.injEq]
  exact List.map_id'' Char.ofNat_toNat s

lemma points_of_characters {t : CodeText} {s : Text} (h : characters t = some s) :
    points s = t := by
  unfold characters at h
  split_ifs at h with hvalid
  rw [← Option.some.inj h, points, List.map_map]
  refine (List.map_congr_left fun c hc => ?_).trans (List.map_id t)
  show (Char.ofNat c).toNat = c
  rw [Char.ofNat, dif_pos (hvalid c hc)]
  rfl

/-- A text that is taken to be encrypted. -/
def Marked (t : CodeText) : Prop := points mark <+: t

instance (t : CodeText) : Decidable (Marked t) := inferInstanceAs (Decidable (_ <+: _))

lemma marked_points {s : Text} : Marked (points s) ↔ isEncrypted (some s) = true := by
  rw [isEncrypted_some]
  constructor
  · rintro ⟨rest, hrest⟩
    have hback := congrArg (List.map Char.ofNat) hrest
    have hid : ∀ u : Text, (points u).map Char.ofNat = u := fun u => by
      rw [points, List.map_map]
      exact List.map_id'' Char.ofNat_toNat u
    rw [List.map_append, hid, hid] at hback
    exact ⟨rest.map Char.ofNat, hback⟩
  · exact fun h => h.map Char.toNat

/-! ## Failures -/

/-- What ends a request. -/
inductive Failure where
  /-- `ChannelError` -/
  | channel (message : Text)
  | typeError
  | attributeError
  /-- A text is no characters. -/
  | unicode
  | secret (e : SecretError)
  | writing (e : PyError)

/-! ## Secret settings -/

inductive ChannelType where
  | email
  | slack
  | webhook
  deriving DecidableEq

def urlKey : CodeText := lit "url"
def secretKey : CodeText := lit "secret"
def toKey : CodeText := lit "to"

/-- `SECRET_FIELDS` -/
def secretFields : ChannelType → List CodeText
  | .email => []
  | .slack => [urlKey]
  | .webhook => [urlKey, secretKey]

variable {F : Fernet}

def ofOption : Option Text → JsonValue
  | none => .null
  | some s => .str (points s)

/-- `encrypt_secret` of a setting. -/
def encryptSetting (cipher : Except SecretError F.Key) (coins : F.Coins) (v : JsonValue) :
    Except Failure JsonValue :=
  match v with
  | .str t =>
    if t = [] ∨ Marked t then .ok (.str t)
    else
      match characters t with
      | none => .error .unicode
      | some s =>
        match encryptSecret cipher coins (some s) with
        | .error e => .error (.secret e)
        | .ok stored => .ok (ofOption stored)
  | v => if v.truthy then .error .attributeError else .ok v

/-- `decrypt_secret` of a setting. -/
def decryptSetting (cipher : Except SecretError F.Key) (v : JsonValue) : Except Failure JsonValue :=
  match v with
  | .str t =>
    if ¬Marked t then .ok (.str t)
    else
      match characters t with
      | none => .error .unicode
      | some s =>
        match decryptSecret cipher (some s) with
        | .error e => .error (.secret e)
        | .ok plain => .ok (ofOption plain)
  | v => .ok v

/-- Change the fields that are there and count as true. -/
def eachField (f : CodeText → JsonValue → Except Failure JsonValue) :
    List CodeText → Dict CodeText JsonValue → Except Failure (Dict CodeText JsonValue)
  | [], settings => .ok settings
  | k :: ks, settings =>
    match settings.get k with
    | none => eachField f ks settings
    | some v =>
      if v.truthy then
        match f k v with
        | .error e => .error e
        | .ok w => eachField f ks (settings.set k w)
      else eachField f ks settings

/-- The settings of a row in plain, as `_row` reveals them. -/
def revealSettings (cipher : Except SecretError F.Key) (type : ChannelType)
    (config : Dict CodeText JsonValue) : Except Failure (Dict CodeText JsonValue) :=
  eachField (fun _ => decryptSetting cipher) (secretFields type) config

/-- The settings as they are stored (`_store_settings`). -/
def storeSettings (cipher : Except SecretError F.Key) (coins : CodeText → F.Coins)
    (type : ChannelType) (settings : Dict CodeText JsonValue) :
    Except Failure (Dict CodeText JsonValue) :=
  eachField (fun k => encryptSetting cipher (coins k)) (secretFields type) settings

/-! ## Checking -/

/-- What the program is configured with, and what `str` writes of values. -/
structure NotifyEnv where
  /-- `HABENY_SMTP_HOST` is set. -/
  mailServer : Bool
  printables : PyRepr.Printables
  depth : ℕ

variable (G : JsonText.FloatText) [DecidablePred G.isFloat] (env : NotifyEnv)

/-- `c in a`, for one character. -/
def contains (c : Char) : JsonValue → Except Failure Bool
  | .str t => .ok (decide (code c ∈ t))
  | .list items => .ok (items.any fun v => decide (v.text? = some [code c]))
  | .dict es => .ok (es.any fun e => decide (e.1 = [code c]))
  | _ => .error .typeError

/-- `len` -/
def size : JsonValue → Except Failure ℕ
  | .str t => .ok t.length
  | .list items => .ok items.length
  | .dict es => .ok es.length
  | _ => .error .typeError

/-- `"@" in a and " " not in a and len(a) <= 254` -/
def isAddress (a : JsonValue) : Except Failure Bool := do
  if !(← contains '@' a) then return false
  if ← contains ' ' a then return false
  return decide ((← size a) ≤ 254)

/-- `all(...)`, which ends at the first that is none. -/
def allAddresses : List JsonValue → Except Failure Bool
  | [] => .ok true
  | a :: items => do
    if !(← isAddress a) then return false
    allAddresses items

/-- What `to` goes through: the parts of a text, or the items. -/
def recipients : JsonValue → Except Failure (List JsonValue)
  | .str t =>
    .ok ((((t.map fun c => if c = code ';' then code ',' else c).splitOn (code ',')).map strip).filter
      (fun a => !a.isEmpty) |>.map .str)
  | .list items => .ok items
  | .dict es => .ok (es.map fun e => .str e.1)
  | v => if v.truthy then .error .typeError else .ok []

/-- `to[:50]` -/
def firstRecipients (v : JsonValue) (items : List JsonValue) : Except Failure JsonValue :=
  match v with
  | .dict _ => .error .typeError
  | _ => .ok (.list (items.take 50))

def noAddress : Failure := .channel "to: one or more email addresses".toList

def noMailServer : Failure :=
  .channel ("email needs a mail server: set HABENY_SMTP_HOST (see the administrator guide, " ++
    "Notifications)").toList

def noUrl : Failure := .channel "url: an http(s) address".toList

def validateEmail (settings : Dict CodeText JsonValue) :
    Except Failure (Dict CodeText JsonValue) :=
  let given := (settings.get toKey).getD .null
  match recipients given with
  | .error e => .error e
  | .ok items =>
    if items.isEmpty then .error noAddress
    else
      match allAddresses items with
      | .error e => .error e
      | .ok false => .error noAddress
      | .ok true =>
        if !env.mailServer then .error noMailServer
        else (firstRecipients given items).map fun kept => Dict.empty.set toKey kept

/-- `(settings.get("url") or "").strip()` -/
def cleanUrl (v : JsonValue) : Except Failure CodeText :=
  match v with
  | .str t => .ok (strip t)
  | v => if v.truthy then .error .attributeError else .ok []

/-- An address that begins as one should and is not too long. -/
def isUrl (url : CodeText) : Bool :=
  (decide (lit "https://" <+: url) || decide (lit "http://" <+: url)) && decide (url.length ≤ 2000)

/-- `str(settings["secret"])[:200]` -/
def cleanSecret (v : JsonValue) : Except Failure CodeText :=
  match v with
  | .str t => .ok (t.take 200)
  | v =>
    match PyRepr.repr G env.printables env.depth v with
    | .error e => .error (.writing e)
    | .ok t => .ok (t.take 200)

/-- `validate` -/
def validate (type : ChannelType) (settings : Dict CodeText JsonValue) :
    Except Failure (Dict CodeText JsonValue) :=
  if type = .email then validateEmail env settings
  else
    match cleanUrl ((settings.get urlKey).getD .null) with
    | .error e => .error e
    | .ok url =>
      if !isUrl url then .error noUrl
      else
        let cleaned := Dict.empty.set urlKey (.str url)
        let secret := (settings.get secretKey).getD .null
        if type = .webhook ∧ secret.truthy = true then
          (cleanSecret G env secret).map fun text => cleaned.set secretKey (.str text)
        else .ok cleaned

/-! ## Fields -/

/-- What comes of one field. -/
def fieldResult (f : CodeText → JsonValue → Except Failure JsonValue) (ks : List CodeText)
    (settings : Dict CodeText JsonValue) (k : CodeText) : Except Failure (Option JsonValue) :=
  match settings.get k with
  | none => .ok none
  | some v => if k ∈ ks ∧ v.truthy = true then (f k v).map some else .ok (some v)

variable {f : CodeText → JsonValue → Except Failure JsonValue} {ks : List CodeText}
  {settings settings' : Dict CodeText JsonValue} {k : CodeText}

lemma fieldResult_of_not_mem (h : k ∉ ks) : fieldResult f ks settings k = .ok (settings.get k) := by
  unfold fieldResult
  cases settings.get k with
  | none => rfl
  | some v => exact if_neg fun hand => h hand.1

/-- A field that was changed or left is the same to the fields after it. -/
lemma fieldResult_cons_of_ne {k' : CodeText} (h : k ≠ k') :
    fieldResult f (k' :: ks) settings k = fieldResult f ks settings k := by
  simp only [fieldResult, List.mem_cons, h, false_or]

lemma fieldResult_set_of_ne {k' : CodeText} {w : JsonValue} (h : k ≠ k') :
    fieldResult f ks (settings.set k' w) k = fieldResult f ks settings k := by
  rw [fieldResult, Dict.get_set_of_ne h, fieldResult]

/-- **The fields are changed each by itself.** -/
theorem eachField_get (hnodup : ks.Nodup) (h : eachField f ks settings = .ok settings') (k) :
    fieldResult f ks settings k = .ok (settings'.get k) := by
  induction ks generalizing settings with
  | nil =>
    obtain rfl := Except.ok.inj h
    exact fieldResult_of_not_mem List.not_mem_nil
  | cons k' ks ih =>
    obtain ⟨hnew, hrestNodup⟩ := List.nodup_cons.mp hnodup
    rw [eachField] at h
    by_cases hk : k = k'
    · subst hk
      cases hget : settings.get k with
      | none =>
        rw [hget] at h
        have hrest := ih hrestNodup h
        rw [fieldResult, hget] at hrest ⊢
        exact hrest
      | some v =>
        rw [hget] at h
        dsimp only at h
        rw [fieldResult, hget]
        split_ifs at h with htruthy
        · cases hf : f k v with
          | error e => simp [hf] at h
          | ok w =>
            rw [hf] at h
            have hrest := ih hrestNodup h
            rw [fieldResult_of_not_mem hnew, Dict.get_set_self] at hrest
            simp only [List.mem_cons, true_or, htruthy, and_self, if_true, hf]
            exact hrest
        · have hrest := ih hrestNodup h
          rw [fieldResult_of_not_mem hnew, hget] at hrest
          exact (if_neg fun hand => htruthy hand.2).trans hrest
    · rw [fieldResult_cons_of_ne hk]
      cases hget : settings.get k' with
      | none =>
        rw [hget] at h
        exact ih hrestNodup h
      | some v =>
        rw [hget] at h
        dsimp only at h
        split_ifs at h
        · cases hf : f k' v with
          | error e => simp [hf] at h
          | ok w =>
            rw [hf] at h
            rw [← ih hrestNodup h, fieldResult_set_of_ne hk]
        · exact ih hrestNodup h

lemma nodup_secretFields (type : ChannelType) : (secretFields type).Nodup := by
  cases type <;> decide

lemma decryptSetting_ofOption (cipher : Except SecretError F.Key) (value : Option Text) :
    decryptSetting cipher (ofOption value) = match decryptSecret cipher value with
      | .error e => .error (.secret e)
      | .ok plain => .ok (ofOption plain) := by
  cases value with
  | none => rfl
  | some s =>
    rw [ofOption, decryptSetting]
    by_cases hmarked : Marked (points s)
    · rw [if_neg (not_not.mpr hmarked), characters_points]
    · have hplain : isEncrypted (some s) = false := by
        rw [← Bool.not_eq_true, ← marked_points]
        exact hmarked
      rw [if_pos hmarked, decryptSecret_of_plain hplain]
      rfl

/-- **A setting that is stored is read**, if it does not begin with the mark. -/
theorem decryptSetting_of_encryptSetting {cipher : Except SecretError F.Key} {coins : F.Coins}
    {t : CodeText} {stored : JsonValue} (ht : ¬Marked t)
    (h : encryptSetting cipher coins (.str t) = .ok stored) :
    decryptSetting cipher stored = .ok (.str t) := by
  rw [encryptSetting] at h
  split_ifs at h with hpass
  · obtain rfl := Except.ok.inj h
    exact if_pos ht
  · cases hchars : characters t with
    | none => simp [hchars] at h
    | some s =>
      obtain rfl := points_of_characters hchars
      have hplain : isEncrypted (some s) = false := by
        rw [← Bool.not_eq_true, ← marked_points]
        exact ht
      rw [hchars] at h
      cases hstored : encryptSecret cipher coins (some s) with
      | error e => simp [hstored] at h
      | ok value =>
        simp only [hstored, Except.ok.injEq] at h
        subst h
        rw [decryptSetting_ofOption, decrypt_encrypt hplain hstored]
        rfl

lemma truthy_str {t : CodeText} : (JsonValue.str t).truthy = true ↔ t ≠ [] := by
  rw [JsonValue.truthy, Bool.not_eq_true', List.isEmpty_eq_false_iff]

/-- What is stored of a text that is not empty is none that is. -/
lemma truthy_of_encryptSetting {cipher : Except SecretError F.Key} {coins : F.Coins}
    {t : CodeText} {stored : JsonValue} (hne : t ≠ [])
    (h : encryptSetting cipher coins (.str t) = .ok stored) : stored.truthy = true := by
  rw [encryptSetting] at h
  split_ifs at h with hpass
  · obtain rfl := Except.ok.inj h
    exact truthy_str.mpr hne
  · cases hchars : characters t with
    | none => simp [hchars] at h
    | some s =>
      obtain rfl := points_of_characters hchars
      have hs : s ≠ [] := fun hs => hne (by rw [hs]; rfl)
      have hplain : isEncrypted (some s) = false := by
        rw [← Bool.not_eq_true, ← marked_points]
        exact fun hmarked => hpass (.inr hmarked)
      rw [hchars] at h
      dsimp only at h
      rw [encryptSecret_of_plain hs hplain] at h
      cases cipher with
      | error e => cases h
      | ok key =>
        obtain rfl := Except.ok.inj h
        exact truthy_str.mpr (List.cons_ne_nil _ _)

/-! ## Settings -/

/-- What is read of a setting that is stored. -/
def readSetting (cipher : Except SecretError F.Key) (type : ChannelType)
    (config : Dict CodeText JsonValue) (k : CodeText) : Except Failure (Option JsonValue) :=
  fieldResult (fun _ => decryptSetting cipher) (secretFields type) config k

variable {cipher : Except SecretError F.Key} {coins : CodeText → F.Coins} {type : ChannelType}
  {config : Dict CodeText JsonValue} {t : CodeText}

/-- Settings that are revealed are what is read of each. -/
lemma readSetting_of_reveal (h : revealSettings cipher type config = .ok settings) (k : CodeText) :
    readSetting cipher type config k = .ok (settings.get k) :=
  eachField_get (nodup_secretFields type) h k

/-- A secret setting is read as it was before it was stored. -/
lemma readSetting_of_store (hk : k ∈ secretFields type) (hget : settings.get k = some (.str t))
    (hne : t ≠ []) (ht : ¬Marked t) (h : storeSettings cipher coins type settings = .ok config) :
    readSetting cipher type config k = .ok (some (.str t)) := by
  have hstored := eachField_get (nodup_secretFields type) h k
  rw [fieldResult, hget] at hstored
  dsimp only at hstored
  rw [if_pos ⟨hk, truthy_str.mpr hne⟩] at hstored
  cases hw : encryptSetting cipher (coins k) (.str t) with
  | error e => simp [hw, Except.map] at hstored
  | ok w =>
    rw [hw] at hstored
    have hconfig : config.get k = some w := (Except.ok.inj hstored).symm
    rw [readSetting, fieldResult, hconfig]
    dsimp only
    rw [if_pos ⟨hk, truthy_of_encryptSetting hne hw⟩, decryptSetting_of_encryptSetting ht hw]
    rfl

/-- A setting that is not secret is read as it is stored. -/
lemma readSetting_of_store_of_not_mem (hk : k ∉ secretFields type)
    (h : storeSettings cipher coins type settings = .ok config) :
    readSetting cipher type config k = .ok (settings.get k) := by
  have hstored := eachField_get (nodup_secretFields type) h k
  rw [fieldResult_of_not_mem hk] at hstored
  rw [readSetting, fieldResult_of_not_mem hk, hstored]

/-- What is not there is not stored. -/
lemma readSetting_of_store_of_none (hget : settings.get k = none)
    (h : storeSettings cipher coins type settings = .ok config) :
    readSetting cipher type config k = .ok none := by
  have hstored := eachField_get (nodup_secretFields type) h k
  rw [fieldResult, hget] at hstored
  rw [readSetting, fieldResult, (Except.ok.inj hstored).symm]

/-! ## What is validated -/

lemma isUrl_ne_nil {url : CodeText} (h : isUrl url = true) : url ≠ [] := by
  rintro rfl
  exact absurd h (by decide)

/-- An address does not begin with the mark. -/
lemma not_marked_of_isUrl {url : CodeText} (h : isUrl url = true) : ¬Marked url := by
  rintro ⟨rest, rfl⟩
  simp only [isUrl, Bool.and_eq_true, Bool.or_eq_true, decide_eq_true_eq] at h
  obtain ⟨⟨tail, htail⟩ | ⟨tail, htail⟩, -⟩ := h
  · exact absurd (List.cons.inj htail).1 (by decide)
  · exact absurd (List.cons.inj htail).1 (by decide)

/-- What is cleaned to an address was a text. -/
lemma exists_of_cleanUrl {v : JsonValue} {url : CodeText} (h : cleanUrl v = .ok url)
    (hurl : isUrl url = true) : ∃ u, v = .str u ∧ url = strip u := by
  cases v with
  | str u => exact ⟨u, rfl, (Except.ok.inj h).symm⟩
  | _ =>
    simp only [cleanUrl] at h
    split_ifs at h
    exact absurd (Except.ok.inj h).symm (isUrl_ne_nil hurl)

lemma get_of_getD_eq_str (h : (settings.get k).getD .null = .str t) :
    settings.get k = some (.str t) := by
  cases hget : settings.get k with
  | none => simp [hget] at h
  | some v =>
    rw [hget] at h
    exact congrArg some h

variable {G env}
variable {cleaned : Dict CodeText JsonValue}

/-- The settings of a channel with an address: the address without blanks around it, and for a
webhook the secret that is there, cut. -/
lemma validate_url (htype : type ≠ .email) (h : validate G env type settings = .ok cleaned) :
    ∃ u, settings.get urlKey = some (.str u) ∧ isUrl (strip u) = true ∧
      cleaned.get urlKey = some (.str (strip u)) ∧
      if type = .webhook ∧ ((settings.get secretKey).getD .null).truthy = true then
        ∃ text, cleanSecret G env ((settings.get secretKey).getD .null) = .ok text ∧
          cleaned.get secretKey = some (.str text)
      else cleaned.get secretKey = none := by
  rw [validate, if_neg htype] at h
  cases hclean : cleanUrl ((settings.get urlKey).getD .null) with
  | error e => simp [hclean] at h
  | ok url =>
    rw [hclean] at h
    dsimp only at h
    split_ifs at h with hnot hsecret
    · have hurl : isUrl url = true := by simpa using hnot
      obtain ⟨u, hu, rfl⟩ := exists_of_cleanUrl hclean hurl
      cases htext : cleanSecret G env ((settings.get secretKey).getD .null) with
      | error e => simp [htext, Except.map] at h
      | ok text =>
        rw [htext] at h
        obtain rfl := Except.ok.inj h
        refine ⟨u, get_of_getD_eq_str hu, hurl, ?_, ?_⟩
        · exact (Dict.get_set_of_ne (by decide)).trans Dict.get_set_self
        · rw [if_pos hsecret]
          exact ⟨text, rfl, Dict.get_set_self⟩
    · have hurl : isUrl url = true := by simpa using hnot
      obtain ⟨u, hu, rfl⟩ := exists_of_cleanUrl hclean hurl
      obtain rfl := Except.ok.inj h
      refine ⟨u, get_of_getD_eq_str hu, hurl, Dict.get_set_self, ?_⟩
      rw [if_neg hsecret]
      exact Dict.get_set_of_ne (by decide)

/-- The settings of a channel for mail: the first addresses. -/
lemma validate_to (h : validate G env .email settings = .ok cleaned) :
    ∃ items kept, recipients ((settings.get toKey).getD .null) = .ok items ∧ items ≠ [] ∧
      firstRecipients ((settings.get toKey).getD .null) items = .ok kept ∧
      cleaned.get toKey = some kept := by
  rw [validate, if_pos rfl, validateEmail] at h
  cases hitems : recipients ((settings.get toKey).getD .null) with
  | error e => simp [hitems] at h
  | ok items =>
    rw [hitems] at h
    dsimp only at h
    split_ifs at h with hempty
    · cases hall : allAddresses items with
      | error e => simp [hall] at h
      | ok all => cases all <;> simp [hall] at h
    · cases hall : allAddresses items with
      | error e => simp [hall] at h
      | ok all =>
        cases all with
        | false => simp [hall] at h
        | true =>
          rw [hall] at h
          cases hkept : firstRecipients ((settings.get toKey).getD .null) items with
          | error e => simp [hkept, Except.map] at h
          | ok kept =>
            rw [hkept] at h
            obtain rfl := Except.ok.inj h
            exact ⟨items, kept, rfl, by simpa using hempty, hkept, Dict.get_set_self⟩

end Habeny.Notify
