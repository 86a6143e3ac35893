import Habeny.Lib.IsoTime
import Mathlib.Data.List.Induction

/-!
# Sessions and API tokens until they expire

The expiry of a session and of an API token is stored as a text, and the database compares it with
the text of the clock.  The operations are written here for any kind of times with an order, so
that they can be run with the texts, as the program does it, and with the instants themselves.

Since the texts are ordered as the instants are, both runs agree step by step (`step_written`): a
session or a token is accepted exactly before its expiry, and exactly the expired ones are pruned
(`expiry_by_text`).
-/

namespace Habeny.Auth

open Habeny.Lib

/-- A row of the table of sessions, the address and the browser left out. -/
structure StoredSession (T : Type) where
  tokenHash : Text
  userId : ℕ
  createdAt : T
  expiresAt : T
  lastSeenAt : T

/-- A row of the table of API tokens. -/
structure StoredToken (T : Type) where
  id : ℕ
  userId : ℕ
  name : Text
  tokenHash : Text
  role : Text
  createdAt : T
  expiresAt : Option T
  lastUsedAt : Option T

/-- Both tables with the ids of the users that they refer to, and the last id that a token got. -/
@[ext]
structure AccessTables (T : Type) where
  users : List ℕ
  sessions : List (StoredSession T)
  tokens : List (StoredToken T)
  lastTokenId : ℕ

def microsPerHour : ℤ := 3600 * 1000000

namespace AccessTables

def empty {T : Type} : AccessTables T := ⟨[], [], [], 0⟩

section Operations

variable {T : Type} [LinearOrder T] (stamp : UtcTime → T) (s : AccessTables T)

/-- `prune_expired_sessions` -/
def pruneExpiredSessions (now : UtcTime) : AccessTables T :=
  { s with sessions := s.sessions.filter fun r => decide ¬r.expiresAt ≤ stamp now }

/-- `delete_expired_api_tokens` -/
def deleteExpiredApiTokens (now : UtcTime) : AccessTables T :=
  { s with tokens := s.tokens.filter fun r => !r.expiresAt.any fun e => decide (e ≤ stamp now) }

/-- `create_session`: expired sessions go, and a new one comes.  The hash is the key of the table
and the user has to be there; otherwise the whole transaction is undone. -/
def createSession (tokenHash : Text) (userId : ℕ) (expiresAt : T) (now : UtcTime) :
    AccessTables T :=
  let pruned := s.pruneExpiredSessions stamp now
  if tokenHash ∈ pruned.sessions.map StoredSession.tokenHash ∨ userId ∉ s.users then s
  else { pruned with
    sessions := pruned.sessions ++ [⟨tokenHash, userId, stamp now, expiresAt, stamp now⟩] }

/-- When a session expires that is started now. -/
def sessionExpiry (ttlHours : ℕ) (now : UtcTime) : Option UtcTime :=
  now.plus (ttlHours * microsPerHour)

/-- A session is stored if its expiry is on the calendar. -/
def storeSession (tokenHash : Text) (userId : ℕ) (now : UtcTime) :
    Option UtcTime → AccessTables T
  | none => s
  | some expires => s.createSession stamp tokenHash userId (stamp expires) now

/-- `start_session` -/
def startSession (ttlHours : ℕ) (tokenHash : Text) (userId : ℕ) (now later : UtcTime) :
    AccessTables T :=
  s.storeSession stamp tokenHash userId later (sessionExpiry ttlHours now)

/-- `create_api_token` -/
def createApiToken (userId : ℕ) (name tokenHash role : Text) (expiresAt : Option T)
    (now : UtcTime) : AccessTables T :=
  if tokenHash ∈ s.tokens.map StoredToken.tokenHash ∨ userId ∉ s.users then s
  else { s with
    tokens := s.tokens ++
      [⟨s.lastTokenId + 1, userId, name, tokenHash, role, stamp now, expiresAt, none⟩]
    lastTokenId := s.lastTokenId + 1 }

/-- When a token expires that is made for some days: never for none, or for zero; the outer `none`
is an expiry that is not on the calendar. -/
def tokenExpiry (days : Option ℤ) (now : UtcTime) : Option (Option UtcTime) :=
  match days with
  | none => some none
  | some 0 => some none
  | some d => (now.plus (d * (24 * microsPerHour))).map some

/-- A token is made on the account page or on the command line. -/
def createToken (userId : ℕ) (name tokenHash role : Text) (days : Option ℤ) (now later : UtcTime) :
    AccessTables T :=
  match tokenExpiry days now with
  | none => s
  | some expires => s.createApiToken stamp userId name tokenHash role (expires.map stamp) later

/-- `get_session_user`: the session that is live, if there is one. -/
def getSessionUser (tokenHash : Text) (now : UtcTime) : Option (StoredSession T) :=
  s.sessions.find? fun r =>
    decide (r.userId ∈ s.users ∧ r.tokenHash = tokenHash ∧ stamp now < r.expiresAt)

/-- `get_api_token_user` -/
def getApiTokenUser (tokenHash : Text) (now : UtcTime) : Option (StoredToken T) :=
  s.tokens.find? fun r => decide (r.userId ∈ s.users ∧ r.tokenHash = tokenHash) &&
    r.expiresAt.all fun e => decide (stamp now < e)

/-- What is done to the tables. -/
inductive Action where
  | startSession (tokenHash : Text) (userId : ℕ) (now later : UtcTime)
  | createToken (userId : ℕ) (name tokenHash role : Text) (days : Option ℤ) (now later : UtcTime)
  | touchSession (tokenHash : Text) (now : UtcTime)
  | touchApiToken (id : ℕ) (now : UtcTime)
  | deleteSession (tokenHash : Text)
  | deleteApiToken (id : ℕ)
  | createUser (id : ℕ)
  | deleteUser (id : ℕ)
  | pruneExpiredSessions (now : UtcTime)
  | deleteExpiredApiTokens (now : UtcTime)

/-- The rows of a deleted user go with it (`ON DELETE CASCADE`). -/
def step (ttlHours : ℕ) : Action → AccessTables T
  | .startSession tokenHash userId now later =>
    s.startSession stamp ttlHours tokenHash userId now later
  | .createToken userId name tokenHash role days now later =>
    s.createToken stamp userId name tokenHash role days now later
  | .touchSession tokenHash now => { s with
      sessions := s.sessions.map fun r =>
        if r.tokenHash = tokenHash then { r with lastSeenAt := stamp now } else r }
  | .touchApiToken id now => { s with
      tokens := s.tokens.map fun r =>
        if r.id = id then { r with lastUsedAt := some (stamp now) } else r }
  | .deleteSession tokenHash => { s with
      sessions := s.sessions.filter fun r => decide (r.tokenHash ≠ tokenHash) }
  | .deleteApiToken id => { s with tokens := s.tokens.filter fun r => decide (r.id ≠ id) }
  | .createUser id => { s with users := id :: s.users }
  | .deleteUser id => { s with
      users := s.users.filter fun a => decide (a ≠ id)
      sessions := s.sessions.filter fun r => decide (r.userId ≠ id)
      tokens := s.tokens.filter fun r => decide (r.userId ≠ id) }
  | .pruneExpiredSessions now => s.pruneExpiredSessions stamp now
  | .deleteExpiredApiTokens now => s.deleteExpiredApiTokens stamp now

/-- The tables after some actions. -/
def after (ttlHours : ℕ) (acts : List Action) : AccessTables T :=
  acts.foldl (fun s act => s.step stamp ttlHours act) empty

variable {stamp s} {tokenHash : Text} {userId : ℕ} {now : UtcTime}

lemma createSession_of_refused {expiresAt : T}
    (h : tokenHash ∈ (s.pruneExpiredSessions stamp now).sessions.map StoredSession.tokenHash ∨
      userId ∉ s.users) : s.createSession stamp tokenHash userId expiresAt now = s := if_pos h

lemma createSession_of_stored {expiresAt : T}
    (h : ¬(tokenHash ∈ (s.pruneExpiredSessions stamp now).sessions.map StoredSession.tokenHash ∨
      userId ∉ s.users)) : s.createSession stamp tokenHash userId expiresAt now =
        { s.pruneExpiredSessions stamp now with
          sessions := (s.pruneExpiredSessions stamp now).sessions ++
            [⟨tokenHash, userId, stamp now, expiresAt, stamp now⟩] } := if_neg h

omit [LinearOrder T] in
lemma createApiToken_of_refused {name role : Text} {expiresAt : Option T}
    (h : tokenHash ∈ s.tokens.map StoredToken.tokenHash ∨ userId ∉ s.users) :
    s.createApiToken stamp userId name tokenHash role expiresAt now = s := if_pos h

omit [LinearOrder T] in
lemma createApiToken_of_stored {name role : Text} {expiresAt : Option T}
    (h : ¬(tokenHash ∈ s.tokens.map StoredToken.tokenHash ∨ userId ∉ s.users)) :
    s.createApiToken stamp userId name tokenHash role expiresAt now = { s with
      tokens := s.tokens ++
        [⟨s.lastTokenId + 1, userId, name, tokenHash, role, stamp now, expiresAt, none⟩]
      lastTokenId := s.lastTokenId + 1 } := if_neg h

lemma after_concat {ttlHours : ℕ} (acts : List Action) (act : Action) :
    after stamp ttlHours (acts ++ [act]) = (after stamp ttlHours acts).step stamp ttlHours act := by
  rw [after, List.foldl_append]
  rfl

end Operations

end AccessTables

/-! ## Texts and instants -/

def StoredSession.written (r : StoredSession UtcTime) : StoredSession Text where
  tokenHash := r.tokenHash
  userId := r.userId
  createdAt := r.createdAt.isoformat
  expiresAt := r.expiresAt.isoformat
  lastSeenAt := r.lastSeenAt.isoformat

def StoredToken.written (r : StoredToken UtcTime) : StoredToken Text where
  id := r.id
  userId := r.userId
  name := r.name
  tokenHash := r.tokenHash
  role := r.role
  createdAt := r.createdAt.isoformat
  expiresAt := r.expiresAt.map UtcTime.isoformat
  lastUsedAt := r.lastUsedAt.map UtcTime.isoformat

namespace AccessTables

/-- The tables with every instant written as a text. -/
def written (t : AccessTables UtcTime) : AccessTables Text where
  users := t.users
  sessions := t.sessions.map StoredSession.written
  tokens := t.tokens.map StoredToken.written
  lastTokenId := t.lastTokenId

/-- The run with the instants themselves. -/
abbrev instants (ttlHours : ℕ) (acts : List Action) : AccessTables UtcTime :=
  after id ttlHours acts

/-- The run of the program, with texts. -/
abbrev texts (ttlHours : ℕ) (acts : List Action) : AccessTables Text :=
  after UtcTime.isoformat ttlHours acts

variable {t : AccessTables UtcTime}

/-! ### Operations agree -/

lemma written_pruneExpiredSessions (now : UtcTime) :
    t.written.pruneExpiredSessions UtcTime.isoformat now =
      (t.pruneExpiredSessions id now).written := by
  refine AccessTables.ext rfl ?_ rfl rfl
  show (t.sessions.map StoredSession.written).filter _ = (t.sessions.filter _).map _
  rw [List.filter_map]
  exact congrArg _ (List.filter_congr fun r _ =>
    decide_eq_decide.mpr (not_congr UtcTime.isoformat_le_iff))

lemma written_deleteExpiredApiTokens (now : UtcTime) :
    t.written.deleteExpiredApiTokens UtcTime.isoformat now =
      (t.deleteExpiredApiTokens id now).written := by
  refine AccessTables.ext rfl rfl ?_ rfl
  show (t.tokens.map StoredToken.written).filter _ = (t.tokens.filter _).map _
  rw [List.filter_map]
  refine congrArg _ (List.filter_congr fun r _ => ?_)
  show (!(r.expiresAt.map UtcTime.isoformat).any fun e => decide (e ≤ now.isoformat)) =
    !r.expiresAt.any fun e => decide (e ≤ now)
  rw [Option.any_map]
  simp only [UtcTime.isoformat_le_iff]

lemma written_getSessionUser (tokenHash : Text) (now : UtcTime) :
    t.written.getSessionUser UtcTime.isoformat tokenHash now =
      (t.getSessionUser id tokenHash now).map StoredSession.written := by
  show (t.sessions.map StoredSession.written).find? _ = (t.sessions.find? _).map _
  rw [List.find?_map]
  refine congrArg (fun p => (t.sessions.find? p).map _) (funext fun r => ?_)
  exact decide_eq_decide.mpr (and_congr_right fun _ => and_congr_right fun _ =>
    UtcTime.isoformat_lt_iff)

lemma written_getApiTokenUser (tokenHash : Text) (now : UtcTime) :
    t.written.getApiTokenUser UtcTime.isoformat tokenHash now =
      (t.getApiTokenUser id tokenHash now).map StoredToken.written := by
  show (t.tokens.map StoredToken.written).find? _ = (t.tokens.find? _).map _
  rw [List.find?_map]
  refine congrArg (fun p => (t.tokens.find? p).map _) (funext fun r => ?_)
  refine congrArg₂ Bool.and rfl ?_
  show (r.expiresAt.map UtcTime.isoformat).all _ = r.expiresAt.all _
  cases r.expiresAt with
  | none => rfl
  | some e => exact decide_eq_decide.mpr UtcTime.isoformat_lt_iff

lemma written_createSession (tokenHash : Text) (userId : ℕ) (expiresAt now : UtcTime) :
    t.written.createSession UtcTime.isoformat tokenHash userId expiresAt.isoformat now =
      (t.createSession id tokenHash userId expiresAt now).written := by
  have hhashes : (t.written.pruneExpiredSessions UtcTime.isoformat now).sessions.map
      StoredSession.tokenHash =
        (t.pruneExpiredSessions id now).sessions.map StoredSession.tokenHash := by
    rw [written_pruneExpiredSessions]
    exact List.map_map
  by_cases h : tokenHash ∈ (t.pruneExpiredSessions id now).sessions.map StoredSession.tokenHash ∨
      userId ∉ t.users
  · rw [createSession_of_refused h, createSession_of_refused (by rwa [hhashes])]
  · rw [createSession_of_stored h, createSession_of_stored (by rwa [hhashes]),
      written_pruneExpiredSessions]
    refine AccessTables.ext rfl ?_ rfl rfl
    show List.map _ _ ++ _ = List.map _ (_ ++ _)
    rw [List.map_append]
    rfl

lemma written_createApiToken (userId : ℕ) (name tokenHash role : Text)
    (expiresAt : Option UtcTime) (now : UtcTime) :
    t.written.createApiToken UtcTime.isoformat userId name tokenHash role
        (expiresAt.map UtcTime.isoformat) now =
      (t.createApiToken id userId name tokenHash role expiresAt now).written := by
  have hhashes : t.written.tokens.map StoredToken.tokenHash =
      t.tokens.map StoredToken.tokenHash := List.map_map
  by_cases h : tokenHash ∈ t.tokens.map StoredToken.tokenHash ∨ userId ∉ t.users
  · rw [createApiToken_of_refused h, createApiToken_of_refused (by rwa [hhashes])]
  · rw [createApiToken_of_stored h, createApiToken_of_stored (by rwa [hhashes])]
    refine AccessTables.ext rfl rfl ?_ rfl
    show List.map _ _ ++ _ = List.map _ (_ ++ _)
    rw [List.map_append]
    rfl

lemma written_storeSession (tokenHash : Text) (userId : ℕ) (now : UtcTime)
    (expiry : Option UtcTime) :
    t.written.storeSession UtcTime.isoformat tokenHash userId now expiry =
      (t.storeSession id tokenHash userId now expiry).written := by
  cases expiry with
  | none => rfl
  | some expires => exact written_createSession ..

lemma written_createToken (userId : ℕ) (name tokenHash role : Text) (days : Option ℤ)
    (now later : UtcTime) :
    t.written.createToken UtcTime.isoformat userId name tokenHash role days now later =
      (t.createToken id userId name tokenHash role days now later).written := by
  unfold createToken
  generalize tokenExpiry days now = expiry
  cases expiry with
  | none => rfl
  | some expires =>
    show _ = (t.createApiToken id userId name tokenHash role (expires.map id) later).written
    rw [Option.map_id_apply]
    exact written_createApiToken ..

lemma written_touchSession (tokenHash : Text) (now : UtcTime) (r : StoredSession UtcTime) :
    (if r.written.tokenHash = tokenHash then { r.written with lastSeenAt := now.isoformat }
      else r.written) =
    (if r.tokenHash = tokenHash then { r with lastSeenAt := now } else r).written := by
  rw [apply_ite StoredSession.written]
  rfl

lemma written_touchApiToken (tokenId : ℕ) (now : UtcTime) (r : StoredToken UtcTime) :
    (if r.written.id = tokenId then { r.written with lastUsedAt := some now.isoformat }
      else r.written) =
    (if r.id = tokenId then { r with lastUsedAt := some now } else r).written := by
  rw [apply_ite StoredToken.written]
  rfl

/-- **A step with texts is the step with the instants.** -/
lemma step_written (ttlHours : ℕ) (act : Action) :
    t.written.step UtcTime.isoformat ttlHours act = (t.step id ttlHours act).written := by
  cases act with
  | startSession tokenHash userId now later => exact written_storeSession ..
  | createToken userId name tokenHash role days now later => exact written_createToken ..
  | touchSession tokenHash now =>
    refine AccessTables.ext rfl ?_ rfl rfl
    show (t.sessions.map _).map _ = (t.sessions.map _).map _
    rw [List.map_map, List.map_map]
    exact List.map_congr_left fun r _ => written_touchSession tokenHash now r
  | touchApiToken tokenId now =>
    refine AccessTables.ext rfl rfl ?_ rfl
    show (t.tokens.map _).map _ = (t.tokens.map _).map _
    rw [List.map_map, List.map_map]
    exact List.map_congr_left fun r _ => written_touchApiToken tokenId now r
  | deleteSession tokenHash => exact AccessTables.ext rfl List.filter_map rfl rfl
  | deleteApiToken tokenId => exact AccessTables.ext rfl rfl List.filter_map rfl
  | createUser userId => rfl
  | deleteUser userId => exact AccessTables.ext rfl List.filter_map List.filter_map rfl
  | pruneExpiredSessions now => exact written_pruneExpiredSessions now
  | deleteExpiredApiTokens now => exact written_deleteExpiredApiTokens now

lemma texts_eq (ttlHours : ℕ) (acts : List Action) :
    texts ttlHours acts = (instants ttlHours acts).written := by
  induction acts using List.reverseRecOn with
  | nil => rfl
  | append_singleton acts act ih =>
    rw [texts] at ih ⊢
    rw [instants] at ih ⊢
    rw [after_concat, after_concat, ih]
    exact step_written ttlHours act

/-! ## The rows of a run -/

variable {ttlHours : ℕ} {act : Action} {acts : List Action}

/-- A session of a run is for a user that is there, and expires as it was said at its start. -/
def SessionStarted (ttlHours : ℕ) (acts : List Action) (users : List ℕ)
    (r : StoredSession UtcTime) : Prop :=
  r.userId ∈ users ∧ ∃ now later, .startSession r.tokenHash r.userId now later ∈ acts ∧
    sessionExpiry ttlHours now = some r.expiresAt

def TokenMade (acts : List Action) (users : List ℕ) (r : StoredToken UtcTime) : Prop :=
  r.userId ∈ users ∧ ∃ days now later,
    .createToken r.userId r.name r.tokenHash r.role days now later ∈ acts ∧
      tokenExpiry days now = some r.expiresAt

/-- All rows are such rows. -/
structure Sound (ttlHours : ℕ) (acts : List Action) (t : AccessTables UtcTime) : Prop where
  sessions : ∀ r ∈ t.sessions, SessionStarted ttlHours acts t.users r
  tokens : ∀ r ∈ t.tokens, TokenMade acts t.users r

/-- A row of before, except for when it was used last. -/
def FromSession (rows : List (StoredSession UtcTime)) (r : StoredSession UtcTime) : Prop :=
  ∃ old ∈ rows, old = { r with lastSeenAt := old.lastSeenAt }

def FromToken (rows : List (StoredToken UtcTime)) (r : StoredToken UtcTime) : Prop :=
  ∃ old ∈ rows, old = { r with lastUsedAt := old.lastUsedAt }

lemma FromSession.self {rows : List (StoredSession UtcTime)} {r : StoredSession UtcTime}
    (h : r ∈ rows) : FromSession rows r := ⟨r, h, rfl⟩

lemma FromToken.self {rows : List (StoredToken UtcTime)} {r : StoredToken UtcTime}
    (h : r ∈ rows) : FromToken rows r := ⟨r, h, rfl⟩

/-- Tables with rows of before, and with rows that the last action made, are sound. -/
lemma Sound.of_rows {t' : AccessTables UtcTime} (h : Sound ttlHours acts t)
    (hs : ∀ r ∈ t'.sessions, FromSession t.sessions r ∧ (r.userId ∈ t.users → r.userId ∈ t'.users) ∨
      SessionStarted ttlHours (acts ++ [act]) t'.users r)
    (ht : ∀ r ∈ t'.tokens, FromToken t.tokens r ∧ (r.userId ∈ t.users → r.userId ∈ t'.users) ∨
      TokenMade (acts ++ [act]) t'.users r) : Sound ttlHours (acts ++ [act]) t' where
  sessions := by
    intro r hr
    rcases hs r hr with ⟨⟨old, hold, heq⟩, husers⟩ | hnew
    · have hbefore := h.sessions old hold
      rw [heq] at hbefore
      obtain ⟨huser, now, later, hmem, hexpiry⟩ := hbefore
      exact ⟨husers huser, now, later, List.mem_append_left _ hmem, hexpiry⟩
    · exact hnew
  tokens := by
    intro r hr
    rcases ht r hr with ⟨⟨old, hold, heq⟩, husers⟩ | hnew
    · have hbefore := h.tokens old hold
      rw [heq] at hbefore
      obtain ⟨huser, days, now, later, hmem, hexpiry⟩ := hbefore
      exact ⟨husers huser, days, now, later, List.mem_append_left _ hmem, hexpiry⟩
    · exact hnew

/-- A step whose rows are all of before, and that removes no user of a row. -/
lemma Sound.of_subset {t' : AccessTables UtcTime} (h : Sound ttlHours acts t)
    (hs : t'.sessions ⊆ t.sessions) (ht : t'.tokens ⊆ t.tokens)
    (hsu : ∀ r ∈ t'.sessions, r.userId ∈ t.users → r.userId ∈ t'.users)
    (htu : ∀ r ∈ t'.tokens, r.userId ∈ t.users → r.userId ∈ t'.users) :
    Sound ttlHours (acts ++ [act]) t' :=
  h.of_rows (fun r hr => .inl ⟨.self (hs hr), hsu r hr⟩) fun r hr => .inl ⟨.self (ht hr), htu r hr⟩

lemma Sound.unchanged (h : Sound ttlHours acts t) : Sound ttlHours (acts ++ [act]) t :=
  h.of_subset (List.Subset.refl _) (List.Subset.refl _) (fun _ _ => id) fun _ _ => id

lemma Sound.storeSession (h : Sound ttlHours acts t) (tokenHash : Text) (userId : ℕ)
    (now later : UtcTime) : Sound ttlHours (acts ++ [.startSession tokenHash userId now later])
      (t.startSession id ttlHours tokenHash userId now later) := by
  rw [startSession]
  cases hexpiry : sessionExpiry ttlHours now with
  | none => exact h.unchanged
  | some expires =>
    rw [AccessTables.storeSession]
    by_cases hfree : tokenHash ∈ (t.pruneExpiredSessions id later).sessions.map
        StoredSession.tokenHash ∨ userId ∉ t.users
    · rw [createSession_of_refused hfree]
      exact h.unchanged
    · rw [createSession_of_stored hfree]
      rw [not_or, not_not] at hfree
      refine h.of_rows (fun r hr => ?_) fun r hr => .inl ⟨.self hr, id⟩
      rcases List.mem_append.mp hr with hold | hnew
      · exact .inl ⟨.self (List.mem_filter.mp hold).1, id⟩
      · rw [List.mem_singleton.mp hnew]
        exact .inr ⟨hfree.2, now, later, List.mem_append_right _ List.mem_cons_self, hexpiry⟩

lemma Sound.createToken (h : Sound ttlHours acts t) (userId : ℕ) (name tokenHash role : Text)
    (days : Option ℤ) (now later : UtcTime) :
    Sound ttlHours (acts ++ [.createToken userId name tokenHash role days now later])
      (t.createToken id userId name tokenHash role days now later) := by
  unfold AccessTables.createToken
  cases hexpiry : tokenExpiry days now with
  | none => exact h.unchanged
  | some expires =>
    show Sound _ _ (t.createApiToken id userId name tokenHash role (expires.map id) later)
    rw [Option.map_id_apply]
    by_cases hfree : tokenHash ∈ t.tokens.map StoredToken.tokenHash ∨ userId ∉ t.users
    · rw [createApiToken_of_refused hfree]
      exact h.unchanged
    · rw [createApiToken_of_stored hfree]
      rw [not_or, not_not] at hfree
      refine h.of_rows (fun r hr => .inl ⟨.self hr, id⟩) fun r hr => ?_
      rcases List.mem_append.mp hr with hold | hnew
      · exact .inl ⟨.self hold, id⟩
      · rw [List.mem_singleton.mp hnew]
        exact .inr ⟨hfree.2, days, now, later, List.mem_append_right _ List.mem_cons_self, hexpiry⟩

lemma Sound.step (h : Sound ttlHours acts t) (act : Action) :
    Sound ttlHours (acts ++ [act]) (t.step id ttlHours act) := by
  cases act with
  | startSession tokenHash userId now later => exact h.storeSession tokenHash userId now later
  | createToken userId name tokenHash role days now later =>
    exact h.createToken userId name tokenHash role days now later
  | touchSession tokenHash now =>
    refine h.of_rows (fun r hr => .inl ⟨?_, id⟩) fun r hr => .inl ⟨.self hr, id⟩
    obtain ⟨old, hold, rfl⟩ := List.mem_map.mp hr
    refine ⟨old, hold, ?_⟩
    split_ifs <;> rfl
  | touchApiToken tokenId now =>
    refine h.of_rows (fun r hr => .inl ⟨.self hr, id⟩) fun r hr => .inl ⟨?_, id⟩
    obtain ⟨old, hold, rfl⟩ := List.mem_map.mp hr
    refine ⟨old, hold, ?_⟩
    split_ifs <;> rfl
  | deleteSession tokenHash =>
    exact h.of_subset (List.filter_subset_self _) (List.Subset.refl _) (fun _ _ => id) fun _ _ => id
  | deleteApiToken tokenId =>
    exact h.of_subset (List.Subset.refl _) (List.filter_subset_self _) (fun _ _ => id) fun _ _ => id
  | createUser userId =>
    exact h.of_subset (List.Subset.refl _) (List.Subset.refl _)
      (fun _ _ => List.mem_cons_of_mem _) fun _ _ => List.mem_cons_of_mem _
  | deleteUser userId =>
    refine h.of_subset (List.filter_subset_self _) (List.filter_subset_self _)
      (fun r hr huser => ?_) fun r hr huser => ?_
    · exact List.mem_filter.mpr ⟨huser, (List.mem_filter.mp hr).2⟩
    · exact List.mem_filter.mpr ⟨huser, (List.mem_filter.mp hr).2⟩
  | pruneExpiredSessions now =>
    exact h.of_subset (List.filter_subset_self _) (List.Subset.refl _) (fun _ _ => id) fun _ _ => id
  | deleteExpiredApiTokens now =>
    exact h.of_subset (List.Subset.refl _) (List.filter_subset_self _) (fun _ _ => id) fun _ _ => id

lemma sound_instants (ttlHours : ℕ) (acts : List Action) :
    Sound ttlHours acts (instants ttlHours acts) := by
  induction acts using List.reverseRecOn with
  | nil => exact ⟨fun _ h => absurd h List.not_mem_nil, fun _ h => absurd h List.not_mem_nil⟩
  | append_singleton acts act ih =>
    rw [instants, after_concat]
    exact ih.step act

/-! ## Expiry -/

/-- A session is accepted exactly before the instant at which it was said at its start to expire,
and pruned exactly from that instant on; and so is a token. -/
structure ExpireInTime (ttlHours : ℕ) (acts : List Action) (s : AccessTables Text)
    (t : AccessTables UtcTime) : Prop where
  written : s = t.written
  sound : Sound ttlHours acts t
  session : ∀ tokenHash now, (s.getSessionUser UtcTime.isoformat tokenHash now).isSome = true ↔
    ∃ r ∈ t.sessions, r.tokenHash = tokenHash ∧ now < r.expiresAt
  token : ∀ tokenHash now, (s.getApiTokenUser UtcTime.isoformat tokenHash now).isSome = true ↔
    ∃ r ∈ t.tokens, r.tokenHash = tokenHash ∧ ∀ e ∈ r.expiresAt, now < e
  sessionsPruned : ∀ now r, r ∈ (s.pruneExpiredSessions UtcTime.isoformat now).sessions ↔
    ∃ r' ∈ t.sessions, r'.written = r ∧ now < r'.expiresAt
  tokensPruned : ∀ now r, r ∈ (s.deleteExpiredApiTokens UtcTime.isoformat now).tokens ↔
    ∃ r' ∈ t.tokens, r'.written = r ∧ ∀ e ∈ r'.expiresAt, now < e

lemma Sound.expireInTime (h : Sound ttlHours acts t) : ExpireInTime ttlHours acts t.written t where
  written := rfl
  sound := h
  session := fun tokenHash now => by
    rw [written_getSessionUser, Option.isSome_map, getSessionUser, List.find?_isSome]
    constructor
    · rintro ⟨r, hr, hfound⟩
      exact ⟨r, hr, (of_decide_eq_true hfound).2⟩
    · rintro ⟨r, hr, hlive⟩
      exact ⟨r, hr, decide_eq_true ⟨(h.sessions r hr).1, hlive⟩⟩
  token := fun tokenHash now => by
    rw [written_getApiTokenUser, Option.isSome_map, getApiTokenUser, List.find?_isSome]
    simp only [Bool.and_eq_true, decide_eq_true_eq, Option.all_eq_true]
    constructor
    · rintro ⟨r, hr, ⟨-, hhash⟩, hlive⟩
      exact ⟨r, hr, hhash, hlive⟩
    · rintro ⟨r, hr, hhash, hlive⟩
      exact ⟨r, hr, ⟨(h.tokens r hr).1, hhash⟩, hlive⟩
  sessionsPruned := fun now r => by
    rw [written_pruneExpiredSessions]
    show r ∈ (t.sessions.filter _).map _ ↔ _
    simp only [List.mem_map, List.mem_filter, decide_eq_true_eq, not_le, id]
    exact exists_congr fun r' => by tauto
  tokensPruned := fun now r => by
    rw [written_deleteExpiredApiTokens]
    show r ∈ (t.tokens.filter _).map _ ↔ _
    simp only [List.mem_map, List.mem_filter, Bool.not_eq_true', Option.any_eq_false,
      decide_eq_false_iff_not, not_le, id]
    exact exists_congr fun r' => by tauto

/-- **Texts are in the order of the instants**, and so sessions and tokens expire in time. -/
theorem expiry_by_text :
    (∀ a b : UtcTime, (a.isoformat < b.isoformat ↔ a < b) ∧ (a.isoformat = b.isoformat ↔ a = b)) ∧
    ∀ ttlHours acts, ExpireInTime ttlHours acts (texts ttlHours acts) (instants ttlHours acts) := by
  refine ⟨fun a b => ⟨UtcTime.isoformat_lt_iff, UtcTime.strictMono_isoformat.injective.eq_iff⟩,
    fun ttlHours acts => ?_⟩
  rw [texts_eq]
  exact (sound_instants ttlHours acts).expireInTime

end AccessTables

end Habeny.Auth
