import Habeny.Lib.Dict
import Habeny.Secrets.Cipher

/-!
# The secrets of manager profiles

A profile has two secrets, which are stored encrypted; a key that was stored before secrets were
encrypted is encrypted when the program starts.

The plan of a run is what would be read if secrets were kept as they are entered (`planned`).
`run_view` says that a run reads as planned, whatever was in the table before, if no secret that is
entered begins with the mark of what is encrypted.
-/

namespace Habeny.Secrets

open Habeny.Lib Utf8

/-! ## Profiles -/

inductive SecretField where
  | siemAuthKey
  | detectionSecret
  deriving DecidableEq

inductive PlainField where
  | name
  | description
  | siemType
  | siemIp
  | siemVersion
  | osType
  | agentGroup
  | memoryLimit
  | cpuShares
  | configTemplateId
  | detectionUrl
  | detectionUsername
  | detectionFingerprint
  | syslogPort
  | syslogProtocol
  deriving DecidableEq

inductive Cell where
  | null
  | int (n : ℤ)
  | text (t : Text)
  deriving DecidableEq

/-- A profile, with secrets of some kind: as they are stored, or as they are read. -/
structure Manager (σ : Type) where
  plain : PlainField → Cell
  secret : SecretField → σ
  createdAt : Text
  updatedAt : Text

/-- A row of the table. -/
abbrev ManagerRow := Manager (Option Text)

/-- The fields of a request that are given. -/
structure ManagerData where
  plain : PlainField → Option Cell
  secret : SecretField → Option (Option Text)

/-- `fields` -/
def plainFields : List PlainField :=
  [.name, .description, .siemType, .siemIp, .siemVersion, .osType, .agentGroup, .memoryLimit,
    .cpuShares, .configTemplateId, .detectionUrl, .detectionUsername, .detectionFingerprint,
    .syslogPort, .syslogProtocol]

def secretFields : List SecretField := [.siemAuthKey, .detectionSecret]

/-- No field is given. -/
def ManagerData.isEmpty (data : ManagerData) : Bool :=
  (plainFields.all fun f => decide (data.plain f = none)) &&
    secretFields.all fun f => decide (data.secret f = none)

inductive ProfileError where
  | keyError (field : PlainField)
  | secret (e : SecretError)
  | integrity

namespace Manager

variable {σ τ : Type}

def mapSecret (f : σ → τ) (m : Manager σ) : Manager τ where
  plain := m.plain
  secret := fun s => f (m.secret s)
  createdAt := m.createdAt
  updatedAt := m.updatedAt

/-- A profile of which both secrets are there; the first that raises raises. -/
def sequence (m : Manager (Except SecretError σ)) : Except SecretError (Manager σ) :=
  match m.secret .siemAuthKey with
  | .error e => .error e
  | .ok key =>
    match m.secret .detectionSecret with
    | .error e => .error e
    | .ok secret =>
      .ok
        { plain := m.plain
          secret := fun
            | .siemAuthKey => key
            | .detectionSecret => secret
          createdAt := m.createdAt
          updatedAt := m.updatedAt }

/-- The value of a column that is not given. -/
def missing : PlainField → Cell
  | .osType => .text "ubuntu_22_04".toList
  | .agentGroup => .text "default".toList
  | .memoryLimit => .text "512MB".toList
  | .cpuShares => .int 1024
  | _ => .null

/-- A new profile, with secrets that are made of what is given. -/
def create (store : SecretField → Option Text → τ) (data : ManagerData) (now : Text) : Manager τ where
  plain := fun f => (data.plain f).getD (missing f)
  secret := fun f => store f ((data.secret f).getD none)
  createdAt := now
  updatedAt := now

/-- A profile of which the fields that are given are set. -/
def update (keep : σ → τ) (store : SecretField → Option Text → τ) (data : ManagerData) (now : Text)
    (m : Manager σ) : Manager τ where
  plain := fun f => (data.plain f).getD (m.plain f)
  secret := fun f => (data.secret f).elim (keep (m.secret f)) (store f)
  createdAt := m.createdAt
  updatedAt := now

/-- What is there of both secrets. -/
lemma sequence_eq_ok_iff {m : Manager (Except SecretError σ)} {r : Manager σ} :
    m.sequence = .ok r ↔ m = r.mapSecret .ok := by
  obtain ⟨plain, secret, createdAt, updatedAt⟩ := m
  obtain ⟨plain', secret', createdAt', updatedAt'⟩ := r
  simp only [sequence, mapSecret, Manager.mk.injEq]
  constructor
  · intro h
    cases hkey : secret .siemAuthKey with
    | error e => simp [hkey] at h
    | ok key =>
      cases hsecret : secret .detectionSecret with
      | error e => simp [hkey, hsecret] at h
      | ok value =>
        simp only [hkey, hsecret, Except.ok.injEq, Manager.mk.injEq] at h
        obtain ⟨rfl, rfl, rfl, rfl⟩ := h
        refine ⟨rfl, ?_, rfl, rfl⟩
        funext f
        cases f with
        | siemAuthKey => exact hkey
        | detectionSecret => exact hsecret
  · rintro ⟨rfl, rfl, rfl, rfl⟩
    simp only [Except.ok.injEq, Manager.mk.injEq, true_and, and_true]
    funext f
    cases f <;> rfl

end Manager

/-! ## The table -/

variable {F : Fernet} (cipher : Except SecretError F.Key)

/-- The unique name of a profile, which has to be there. -/
def nameTaken (t : Dict Text ManagerRow) (id : Text) (row : ManagerRow) : Bool :=
  t.keys.any fun id' => decide (id' ≠ id) &&
    (t.get id').any fun row' => decide (row'.plain .name = row.plain .name)

/-- A row that the table refuses. -/
def refused (t : Dict Text ManagerRow) (id : Text) (row : ManagerRow) : Bool :=
  decide (row.plain .name = .null ∨ row.plain .siemType = .null) || nameTaken t id row

/-- A row with its secrets decrypted (`_manager_row`). -/
def managerRow (row : ManagerRow) : Except SecretError ManagerRow :=
  (row.mapSecret (decryptSecret cipher)).sequence

def getManager (t : Dict Text ManagerRow) (id : Text) : Except SecretError (Option ManagerRow) :=
  match t.get id with
  | none => .ok none
  | some row => (managerRow cipher row).map some

/-- Add a profile: the table that is committed. -/
def createManager (coins : SecretField → F.Coins) (t : Dict Text ManagerRow) (id : Text)
    (data : ManagerData) (now : Text) : Except ProfileError (Dict Text ManagerRow) :=
  if data.plain .name = none then .error (.keyError .name)
  else if data.plain .siemType = none then .error (.keyError .siemType)
  else
    match (Manager.create (fun f => encryptSecret cipher (coins f)) data now).sequence with
    | .error e => .error (.secret e)
    | .ok row =>
      if (t.get id).isSome || refused t id row then .error .integrity else .ok (t.set id row)

/-- Change a profile: the table that is committed. -/
def updateManager (coins : SecretField → F.Coins) (t : Dict Text ManagerRow) (id : Text)
    (data : ManagerData) (now : Text) : Except ProfileError (Dict Text ManagerRow) :=
  match t.get id with
  | none => .ok t
  | some old =>
    if data.isEmpty then .ok t
    else
      match (old.update .ok (fun f => encryptSecret cipher (coins f)) data now).sequence with
      | .error e => .error (.secret e)
      | .ok row => if refused t id row then .error .integrity else .ok (t.set id row)

/-- `UPDATE managers SET siem_auth_key = ? WHERE manager_id = ?` -/
def setAuthKey (t : Dict Text ManagerRow) (id : Text) (stored : Option Text) : Dict Text ManagerRow :=
  match t.get id with
  | none => t
  | some row => t.set id { row with secret := Function.update row.secret .siemAuthKey stored }

/-- The loop over the keys that were read. -/
def encryptEach (coins : Text → F.Coins) :
    List (Text × Text) → Dict Text ManagerRow → ℕ → Except SecretError (Dict Text ManagerRow × ℕ)
  | [], t, changed => .ok (t, changed)
  | (id, key) :: rows, t, changed =>
    if isEncrypted (some key) then encryptEach coins rows t changed
    else
      match encryptSecret cipher (coins id) (some key) with
      | .error e => .error e
      | .ok stored => encryptEach coins rows (setAuthKey t id stored) (changed + 1)

/-- The keys that are there and not empty. -/
def authKeys (t : Dict Text ManagerRow) : List (Text × Text) :=
  t.keys.filterMap fun id => (t.get id).bind fun row =>
    (row.secret .siemAuthKey).bind fun key => if key = [] then none else some (id, key)

/-- Encrypt the keys that were stored before secrets were encrypted. -/
def encryptPlaintextManagerSecrets (coins : Text → F.Coins) (t : Dict Text ManagerRow) :
    Except SecretError (Dict Text ManagerRow × ℕ) :=
  encryptEach cipher coins (authKeys t) t 0

/-! ## Runs -/

/-- The keys and the table. -/
structure Profiles (F : Fernet) where
  keys : Keys F
  table : Dict Text ManagerRow

/-- What happens to the profiles.  That the cipher is used, which may make a key file, is an action
of its own. -/
inductive ProfileAction (F : Fernet) where
  | create (id : Text) (data : ManagerData) (coins : SecretField → F.Coins) (now : Text)
  | update (id : Text) (data : ManagerData) (coins : SecretField → F.Coins) (now : Text)
  | delete (id : Text)
  | upgrade (coins : Text → F.Coins)
  | useKey
  | restart

/-- What an action commits, if it does not raise before. -/
def Profiles.commit (s : Profiles F) : ProfileAction F → Except ProfileError (Profiles F)
  | .create id data coins now =>
    (createManager s.keys.cipher coins s.table id data now).map fun t => { s with table := t }
  | .update id data coins now =>
    (updateManager s.keys.cipher coins s.table id data now).map fun t => { s with table := t }
  | .delete id => .ok { s with table := s.table.erase id }
  | .upgrade coins =>
    match encryptPlaintextManagerSecrets s.keys.cipher coins s.table with
    | .error e => .error (.secret e)
    | .ok r => .ok { s with table := r.1 }
  | .useKey => .ok { s with keys := s.keys.use }
  | .restart => .ok { s with keys := s.keys.restart }

/-- A run, with the actions that are committed; the others raise and leave everything as it is. -/
def Profiles.run : Profiles F → List (ProfileAction F) → Profiles F × List (ProfileAction F)
  | s, [] => (s, [])
  | s, a :: as =>
    match s.commit a with
    | .error _ => s.run as
    | .ok s' => ((s'.run as).1, a :: (s'.run as).2)

/-! ## The plan -/

/-- What is read of every profile. -/
abbrev View := Text → Option (Manager (Except SecretError (Option Text)))

def view (t : Dict Text ManagerRow) : View := fun id =>
  (t.get id).map (Manager.mapSecret (decryptSecret cipher))

def Profiles.view (s : Profiles F) : View := Secrets.view s.keys.cipher s.table

/-- What an action does to what is read: a secret is read as it is given, and nothing else changes
what is read of one. -/
def planned (v : View) : ProfileAction F → View
  | .create id data _ now => Function.update v id (some (Manager.create (fun _ => .ok) data now))
  | .update id data _ now =>
    match v id with
    | none => v
    | some m =>
      if data.isEmpty then v
      else Function.update v id (some (m.update (fun s => s) (fun _ => .ok) data now))
  | .delete id => Function.update v id none
  | .upgrade _ | .useKey | .restart => v

/-- No secret that is given begins with the mark. -/
def ManagerData.Unmarked (data : ManagerData) : Prop :=
  ∀ f v, data.secret f = some v → isEncrypted v = false

def ProfileAction.Unmarked : ProfileAction F → Prop
  | .create _ data _ _ | .update _ data _ _ => data.Unmarked
  | _ => True

/-! ## Runs go as planned -/

variable {cipher} {coins : SecretField → F.Coins} {t t' : Dict Text ManagerRow} {id : Text}
  {data : ManagerData} {now : Text}

/-- **A profile is read as it is viewed**, if both of its secrets can be read. -/
theorem getManager_eq_some_iff {r : ManagerRow} :
    getManager cipher t id = .ok (some r) ↔ view cipher t id = some (r.mapSecret .ok) := by
  unfold getManager view
  cases t.get id with
  | none => simp
  | some row =>
    rw [Option.map_some, Option.some.injEq, ← Manager.sequence_eq_ok_iff]
    show (managerRow cipher row).map some = .ok (some r) ↔ managerRow cipher row = .ok r
    cases managerRow cipher row with
    | error e => simp [Except.map]
    | ok row' => simp [Except.map]

lemma view_set (row : ManagerRow) : view cipher (t.set id row)
    = Function.update (view cipher t) id (some (row.mapSecret (decryptSecret cipher))) := by
  funext id'
  by_cases h : id' = id
  · subst h
    rw [Function.update_self, view, Dict.get_set_self]
    rfl
  · rw [Function.update_of_ne h, view, Dict.get_set_of_ne h]
    rfl

lemma view_erase : view cipher (t.erase id) = Function.update (view cipher t) id none := by
  funext id'
  by_cases h : id' = id
  · subst h
    rw [Function.update_self, view, Dict.get_erase_self]
    rfl
  · rw [Function.update_of_ne h, view, Dict.get_erase_of_ne h]
    rfl

/-- What is entered is read. -/
lemma decrypt_entered {draw : F.Coins} {value stored : Option Text}
    (h : isEncrypted value = false) (hstored : encryptSecret cipher draw value = .ok stored) :
    decryptSecret cipher stored = .ok value := by
  cases value with
  | none =>
    obtain rfl := Except.ok.inj hstored
    rfl
  | some v => exact decrypt_encrypt h hstored

/-- A new profile is read as it was given. -/
lemma createManager_view (hdata : data.Unmarked)
    (h : createManager cipher coins t id data now = .ok t') :
    view cipher t' = planned (view cipher t) (ProfileAction.create id data coins now) := by
  unfold createManager at h
  split_ifs at h
  cases hrow : (Manager.create (fun f => encryptSecret cipher (coins f)) data now).sequence with
  | error e => simp [hrow] at h
  | ok row =>
    rw [hrow] at h
    dsimp only at h
    split_ifs at h
    obtain rfl := Except.ok.inj h
    have hstored := Manager.sequence_eq_ok_iff.mp hrow
    rw [view_set, planned]
    congr 2
    rw [Manager.create, Manager.mapSecret, Manager.mk.injEq] at hstored
    obtain ⟨hplain, hsecret, hcreated, hupdated⟩ := hstored
    rw [Manager.mapSecret, Manager.create, Manager.mk.injEq]
    refine ⟨hplain.symm, ?_, hcreated.symm, hupdated.symm⟩
    funext f
    refine decrypt_entered ?_ (congrFun hsecret f)
    cases hgiven : data.secret f with
    | none => rfl
    | some value => exact hdata f value hgiven

/-- A profile that was changed is read with the fields that were given. -/
lemma updateManager_view (hdata : data.Unmarked)
    (h : updateManager cipher coins t id data now = .ok t') :
    view cipher t' = planned (view cipher t) (ProfileAction.update id data coins now) := by
  unfold updateManager at h
  dsimp only [planned]
  cases hget : t.get id with
  | none =>
    rw [hget] at h
    have hview : view cipher t id = none := by rw [view, hget]; rfl
    rw [hview, ← Except.ok.inj h]
  | some old =>
    rw [hget] at h
    have hview : view cipher t id = some (old.mapSecret (decryptSecret cipher)) := by
      rw [view, hget]
      rfl
    rw [hview]
    dsimp only at h ⊢
    split_ifs at h ⊢
    · rw [← Except.ok.inj h]
    · cases hrow : (old.update .ok (fun f => encryptSecret cipher (coins f)) data now).sequence with
      | error e => simp [hrow] at h
      | ok row =>
        rw [hrow] at h
        dsimp only at h
        split_ifs at h
        obtain rfl := Except.ok.inj h
        have hstored := Manager.sequence_eq_ok_iff.mp hrow
        rw [view_set]
        congr 2
        rw [Manager.update, Manager.mapSecret, Manager.mk.injEq] at hstored
        obtain ⟨hplain, hsecret, hcreated, hupdated⟩ := hstored
        rw [Manager.mapSecret, Manager.update, Manager.mk.injEq]
        refine ⟨hplain.symm, ?_, hcreated.symm, hupdated.symm⟩
        funext f
        have hf := congrFun hsecret f
        cases hgiven : data.secret f with
        | none =>
          simp only [hgiven, Option.elim_none, Except.ok.injEq] at hf ⊢
          rw [← hf]
          rfl
        | some value =>
          simp only [hgiven, Option.elim_some] at hf ⊢
          exact decrypt_entered (hdata f value hgiven) hf

/-- A key that is stored anew as what is read of it. -/
lemma setAuthKey_view (stored : Option Text) {m : Manager (Except SecretError (Option Text))}
    (hview : view cipher t id = some m) (h : m.secret .siemAuthKey = decryptSecret cipher stored) :
    view cipher (setAuthKey t id stored) = view cipher t := by
  unfold setAuthKey
  cases hget : t.get id with
  | none => rfl
  | some row =>
    rw [view, hget] at hview
    obtain rfl := Option.some.inj hview
    show view cipher (t.set id _) = _
    rw [view_set]
    refine Function.update_eq_iff.mpr ⟨?_, fun _ _ => rfl⟩
    rw [view, hget, Option.map_some, Option.some.injEq, Manager.mapSecret, Manager.mapSecret,
      Manager.mk.injEq]
    refine ⟨rfl, ?_, rfl, rfl⟩
    funext f
    cases f with
    | siemAuthKey => exact h.symm
    | detectionSecret => rfl

/-- Keys that are encrypted are read as they were. -/
lemma encryptEach_view {draw : Text → F.Coins} {rows : List (Text × Text)} {changed : ℕ}
    {r : Dict Text ManagerRow × ℕ}
    (hrows : ∀ row ∈ rows, ∃ m, view cipher t row.1 = some m ∧
      m.secret .siemAuthKey = decryptSecret cipher (some row.2))
    (h : encryptEach cipher draw rows t changed = .ok r) : view cipher r.1 = view cipher t := by
  induction rows generalizing t changed with
  | nil => rw [← Except.ok.inj h]
  | cons row rows ih =>
    obtain ⟨id, key⟩ := row
    obtain ⟨⟨m, hview, hkey⟩, hrows⟩ := List.forall_mem_cons.mp hrows
    rw [encryptEach] at h
    split_ifs at h
    · exact ih hrows h
    · cases hstored : encryptSecret cipher (draw id) (some key) with
      | error e => simp [hstored] at h
      | ok stored =>
        rw [hstored] at h
        have hsame := setAuthKey_view stored hview
          (hkey.trans (decrypt_encrypt_again hstored).symm)
        rw [ih (by rw [hsame]; exact hrows) h, hsame]

/-- The upgrade changes nothing of what is read. -/
lemma encryptPlaintextManagerSecrets_view {draw : Text → F.Coins} {r : Dict Text ManagerRow × ℕ}
    (h : encryptPlaintextManagerSecrets cipher draw t = .ok r) :
    view cipher r.1 = view cipher t := by
  refine encryptEach_view (fun row hrow => ?_) h
  obtain ⟨id, -, hid⟩ := List.mem_filterMap.mp hrow
  obtain ⟨m, hget, hbind⟩ := Option.bind_eq_some_iff.mp hid
  obtain ⟨key, hkey, hsome⟩ := Option.bind_eq_some_iff.mp hbind
  split_ifs at hsome
  obtain rfl := Option.some.inj hsome
  refine ⟨m.mapSecret (decryptSecret cipher), by rw [view, hget]; rfl, ?_⟩
  show decryptSecret cipher (m.secret .siemAuthKey) = _
  rw [hkey]

/-- A step that is committed goes as planned, under the same key. -/
lemma commit_view {s s' : Profiles F} {a : ProfileAction F} (ha : a.Unmarked)
    (h : s.commit a = .ok s') : s'.keys.cipher = s.keys.cipher ∧ s'.view = planned s.view a := by
  cases a with
  | create id data coins now =>
    unfold Profiles.commit at h
    cases ht : createManager s.keys.cipher coins s.table id data now with
    | error e => simp [ht, Except.map] at h
    | ok t' =>
      simp only [ht, Except.map, Except.ok.injEq] at h
      subst h
      exact ⟨rfl, createManager_view ha ht⟩
  | update id data coins now =>
    unfold Profiles.commit at h
    cases ht : updateManager s.keys.cipher coins s.table id data now with
    | error e => simp [ht, Except.map] at h
    | ok t' =>
      simp only [ht, Except.map, Except.ok.injEq] at h
      subst h
      exact ⟨rfl, updateManager_view ha ht⟩
  | delete id =>
    obtain rfl := Except.ok.inj h
    exact ⟨rfl, view_erase⟩
  | upgrade draw =>
    unfold Profiles.commit at h
    cases hr : encryptPlaintextManagerSecrets s.keys.cipher draw s.table with
    | error e => simp [hr] at h
    | ok r =>
      simp only [hr, Except.ok.injEq] at h
      subst h
      exact ⟨rfl, encryptPlaintextManagerSecrets_view hr⟩
  | useKey =>
    obtain rfl := Except.ok.inj h
    refine ⟨s.keys.cipher_use, ?_⟩
    rw [Profiles.view, s.keys.cipher_use]
    rfl
  | restart =>
    obtain rfl := Except.ok.inj h
    refine ⟨s.keys.cipher_restart, ?_⟩
    rw [Profiles.view, s.keys.cipher_restart]
    rfl

/-- **A run reads as planned**, whatever was in the table before. -/
theorem run_view (s : Profiles F) {as : List (ProfileAction F)} (h : ∀ a ∈ as, a.Unmarked) :
    (s.run as).1.view = (s.run as).2.foldl planned s.view := by
  induction as generalizing s with
  | nil => rfl
  | cons a as ih =>
    obtain ⟨ha, has⟩ := List.forall_mem_cons.mp h
    rw [Profiles.run]
    cases hcommit : s.commit a with
    | error e => exact ih s has
    | ok s' =>
      dsimp only
      rw [List.foldl_cons, ← (commit_view ha hcommit).2, ih s' has]

/-! ## What is kept of a secret -/

/-- What a cipher makes of secrets that do not begin with the mark. -/
structure SecretsKept (F : Fernet) : Prop where
  /-- A secret is stored, and read as it was stored. -/
  read : ∀ (key : F.Key) coins v, isEncrypted (some v) = false →
    ∃ stored, encryptSecret (.ok key) coins (some v) = .ok stored ∧
      decryptSecret (.ok key) stored = .ok (some v)
  /-- What is stored of it is the mark and a token, in which no other character occurs. -/
  hidden : ∀ (key : F.Key) coins v stored, v ≠ [] → isEncrypted (some v) = false →
    encryptSecret (.ok key) coins (some v) = .ok stored →
      ∃ t, stored = some (mark ++ t) ∧ F.decrypt key t = some (encode v) ∧
        ((∃ c ∈ v, base64Url c = false ∧ c ∉ mark) → ¬v <:+: mark ++ t)
  /-- Encrypting what is stored, in plain or not, changes nothing of what is read. -/
  again : ∀ (cipher : Except SecretError F.Key) coins value stored,
    encryptSecret cipher coins value = .ok stored →
      decryptSecret cipher stored = decryptSecret cipher value
  /-- What another key encrypted is unreadable. -/
  otherKey : ∀ (key key' : F.Key) coins v stored, key ≠ key' → v ≠ [] →
    isEncrypted (some v) = false → encryptSecret (.ok key) coins (some v) = .ok stored →
      decryptSecret (.ok key') stored = .ok none
  /-- The profiles are read as they were entered, over every run. -/
  runs : ∀ (s : Profiles F) as, (∀ a ∈ as, ProfileAction.Unmarked a) →
    (s.run as).1.view = (s.run as).2.foldl planned s.view

/-- A secret with a character that tokens do not have is not in what is stored. -/
lemma not_infix_stored {v t : Text} (ht : ∀ c ∈ t, base64Url c = true)
    (h : ∃ c ∈ v, base64Url c = false ∧ c ∉ mark) : ¬v <:+: mark ++ t := by
  intro hpart
  obtain ⟨c, hc, hother, hmark⟩ := h
  rcases List.mem_append.mp (hpart.subset hc) with hmem | hmem
  · exact hmark hmem
  · exact absurd ((ht c hmem).symm.trans hother) (by decide)

/-- **Secrets are kept**: one that does not begin with the mark is read as it was stored, by every
key, also after it is encrypted again, and under no other key; and what is stored of it is a
token. -/
theorem secretsKept (F : Fernet) : SecretsKept F where
  read := fun key coins v h => by
    obtain ⟨stored, hstored⟩ := exists_encryptSecret key coins (some v)
    exact ⟨stored, hstored, decrypt_encrypt h hstored⟩
  hidden := fun key coins v stored hne h hstored => by
    obtain ⟨t, ht, htoken, hdecrypt⟩ := stored_token hne h hstored
    exact ⟨t, ht, hdecrypt, not_infix_stored htoken⟩
  again := fun _ _ _ _ => decrypt_encrypt_again
  otherKey := fun _ _ _ _ _ => decrypt_other_key
  runs := fun s _ => run_view s

/-! ## A secret that begins with the mark -/

/-- A secret that begins with the mark is stored in plain and cannot be read; and a secret of one
letter of the mark is in whatever is stored of it. -/
theorem marked_not_read :
    (∃ stored : Option Text,
      encryptSecret (F := twoKeys) (.ok true) () (some "enc:v1:x".toList) = .ok stored ∧
        stored = some "enc:v1:x".toList ∧
        decryptSecret (F := twoKeys) (.ok true) stored = .ok none) ∧
      ∃ stored : Text, encryptSecret (F := twoKeys) (.ok true) () (some ['e']) = .ok (some stored) ∧
        ['e'] <:+: stored := by
  refine ⟨⟨_, rfl, rfl, rfl⟩, _, rfl, ?_⟩
  decide

end Habeny.Secrets
