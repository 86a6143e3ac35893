import Habeny.Auth.Role
import Habeny.Auth.SecondFactor
import Mathlib.Data.List.Nodup
import Mathlib.Data.List.Perm.Subperm

/-!
# The users table

A row keeps an account's privilege twice, as its role and as its `isAdmin` flag.  Five
operations write the table: the first administrator's setup, two ways to create an account, the
change of a role and the deletion.  Each is one transaction; an operation that is refused
answers so and leaves the table as it is.

A table carries its constraints: ids are distinct and never used again (`AUTOINCREMENT`), and
no two rows share a name, whatever its case, or a single sign-on identity.
-/

namespace Habeny.Auth

open Habeny.Lib

/-- The columns of a row that the operations below read or write.  The time of creation is in
microseconds; its text in the database sorts as the time does. -/
structure UserRow where
  id : ℕ
  username : Text
  passwordHash : Text
  isAdmin : Bool
  role : Role
  oidcSubject : Option Text
  createdAt : ℤ
  factor : FactorRow
  deriving DecidableEq

/-- What an `INSERT` gives; the id is the table's to choose. -/
structure NewUser where
  username : Text
  passwordHash : Text
  isAdmin : Bool
  role : Role
  oidcSubject : Option Text
  createdAt : ℤ

/-- A name as `COLLATE NOCASE` compares it: only the ASCII letters lose their case. -/
def nocase (username : Text) : Text := username.map Char.toLower

def UserRow.nameKey (r : UserRow) : Text := nocase r.username

/-- The users table with its constraints. -/
structure Users where
  rows : List UserRow
  lastId : ℕ
  ids_nodup : (rows.map UserRow.id).Nodup
  ids_le : ∀ r ∈ rows, r.id ≤ lastId
  names_nodup : (rows.map UserRow.nameKey).Nodup
  subjects_nodup : (rows.filterMap UserRow.oidcSubject).Nodup

namespace Users

/-- The table before the first account. -/
def empty : Users where
  rows := []
  lastId := 0
  ids_nodup := List.nodup_nil
  ids_le := fun _ h => absurd h List.not_mem_nil
  names_nodup := List.nodup_nil
  subjects_nodup := List.nodup_nil

/-! ## Writing rows -/

def newRow (u : Users) (n : NewUser) : UserRow :=
  { id := u.lastId + 1, username := n.username, passwordHash := n.passwordHash,
    isAdmin := n.isAdmin, role := n.role, oidcSubject := n.oidcSubject, createdAt := n.createdAt,
    factor := .off }

/-- The constraints leave room for a new row: its name and its identity are not taken. -/
def Free (u : Users) (n : NewUser) : Prop :=
  nocase n.username ∉ u.rows.map UserRow.nameKey ∧
    ∀ subject ∈ n.oidcSubject, subject ∉ u.rows.filterMap UserRow.oidcSubject

instance (u : Users) (n : NewUser) : Decidable (u.Free n) :=
  inferInstanceAs (Decidable (_ ∧ _))

lemma ids_nodup_append (u : Users) (n : NewUser) :
    ((u.rows ++ [u.newRow n]).map UserRow.id).Nodup := by
  rw [List.map_append, List.nodup_append]
  refine ⟨u.ids_nodup, List.nodup_singleton _, ?_⟩
  intro i hi j hj
  obtain ⟨r, hr, rfl⟩ := List.mem_map.mp hi
  have hj : j = u.lastId + 1 := by simpa [newRow] using hj
  have hle := u.ids_le r hr
  omega

lemma ids_le_append (u : Users) (n : NewUser) :
    ∀ r ∈ u.rows ++ [u.newRow n], r.id ≤ u.lastId + 1 := by
  intro r hr
  rcases List.mem_append.mp hr with hr | hr
  · exact Nat.le_succ_of_le (u.ids_le r hr)
  · rw [List.mem_singleton.mp hr]
    exact le_rfl

lemma names_nodup_append {u : Users} {n : NewUser} (h : u.Free n) :
    ((u.rows ++ [u.newRow n]).map UserRow.nameKey).Nodup := by
  rw [List.map_append, List.nodup_append]
  refine ⟨u.names_nodup, List.nodup_singleton _, ?_⟩
  rintro a ha b hb rfl
  have hb : a = nocase n.username := by simpa [newRow, UserRow.nameKey] using hb
  exact h.1 (hb ▸ ha)

lemma subjects_nodup_append {u : Users} {n : NewUser} (h : u.Free n) :
    ((u.rows ++ [u.newRow n]).filterMap UserRow.oidcSubject).Nodup := by
  rw [List.filterMap_append, List.nodup_append]
  refine ⟨u.subjects_nodup, ?_, ?_⟩
  · cases hs : n.oidcSubject <;> simp [newRow, hs]
  · rintro a ha b hb rfl
    refine h.2 a ?_ ha
    simpa [newRow, Option.mem_def] using hb

/-- `INSERT`: the row that was written, or nothing and the table as it is when a constraint
forbids it (`IntegrityError`). -/
def insert (u : Users) (n : NewUser) : Option UserRow × Users :=
  if h : u.Free n then
    (some (u.newRow n),
      { rows := u.rows ++ [u.newRow n]
        lastId := u.lastId + 1
        ids_nodup := u.ids_nodup_append n
        ids_le := u.ids_le_append n
        names_nodup := names_nodup_append h
        subjects_nodup := subjects_nodup_append h })
  else (none, u)

/-- Write into the row of an id. -/
def writeAt (id : ℕ) (f : UserRow → UserRow) (r : UserRow) : UserRow := if r.id = id then f r else r

/-- A write that leaves alone what the constraints are about. -/
structure KeepsKeys (f : UserRow → UserRow) : Prop where
  id : ∀ r, (f r).id = r.id
  nameKey : ∀ r, (f r).nameKey = r.nameKey
  oidcSubject : ∀ r, (f r).oidcSubject = r.oidcSubject

/-- A column that the write keeps is the same in every row. -/
lemma writeAt_eq {β : Type*} {g : UserRow → β} (id : ℕ) {f : UserRow → UserRow}
    (hf : ∀ r, g (f r) = g r) (r : UserRow) : g (writeAt id f r) = g r := by
  unfold writeAt
  split_ifs
  · exact hf r
  · rfl

lemma map_writeAt {β : Type*} {g : UserRow → β} (u : Users) (id : ℕ) {f : UserRow → UserRow}
    (hf : ∀ r, g (f r) = g r) : (u.rows.map (writeAt id f)).map g = u.rows.map g := by
  rw [List.map_map]
  exact List.map_congr_left fun r _ => writeAt_eq id hf r

lemma ids_nodup_map (u : Users) (id : ℕ) {f : UserRow → UserRow} (hf : KeepsKeys f) :
    ((u.rows.map (writeAt id f)).map UserRow.id).Nodup := by
  rw [u.map_writeAt id hf.id]
  exact u.ids_nodup

lemma ids_le_map (u : Users) (id : ℕ) {f : UserRow → UserRow} (hf : KeepsKeys f) :
    ∀ r ∈ u.rows.map (writeAt id f), r.id ≤ u.lastId := by
  intro r hr
  obtain ⟨r₀, hr₀, rfl⟩ := List.mem_map.mp hr
  rw [writeAt_eq id hf.id]
  exact u.ids_le r₀ hr₀

lemma names_nodup_map (u : Users) (id : ℕ) {f : UserRow → UserRow} (hf : KeepsKeys f) :
    ((u.rows.map (writeAt id f)).map UserRow.nameKey).Nodup := by
  rw [u.map_writeAt id hf.nameKey]
  exact u.names_nodup

lemma subjects_nodup_map (u : Users) (id : ℕ) {f : UserRow → UserRow} (hf : KeepsKeys f) :
    ((u.rows.map (writeAt id f)).filterMap UserRow.oidcSubject).Nodup := by
  rw [List.filterMap_map]
  have hsame : UserRow.oidcSubject ∘ writeAt id f = UserRow.oidcSubject :=
    funext fun r => writeAt_eq id hf.oidcSubject r
  rw [hsame]
  exact u.subjects_nodup

/-- `UPDATE users SET … WHERE id = ?`. -/
def modify (u : Users) (id : ℕ) (f : UserRow → UserRow) (hf : KeepsKeys f) : Users where
  rows := u.rows.map (writeAt id f)
  lastId := u.lastId
  ids_nodup := u.ids_nodup_map id hf
  ids_le := u.ids_le_map id hf
  names_nodup := u.names_nodup_map id hf
  subjects_nodup := u.subjects_nodup_map id hf

/-- The rows of other ids are kept. -/
lemma mem_modify_of_ne {u : Users} {id : ℕ} {f : UserRow → UserRow} (hf : KeepsKeys f)
    {r : UserRow} (hr : r ∈ u.rows) (hid : r.id ≠ id) : r ∈ (u.modify id f hf).rows :=
  List.mem_map.mpr ⟨r, hr, by simp [writeAt, hid]⟩

/-- A row with another role: the flag is written with it. -/
def withRole (role : Role) (r : UserRow) : UserRow :=
  { r with role := role, isAdmin := decide (role = .admin) }

lemma keepsKeys_withRole (role : Role) : KeepsKeys (withRole role) :=
  ⟨fun _ => rfl, fun _ => rfl, fun _ => rfl⟩

/-- A change of role keeps the time of creation. -/
lemma writeAt_withRole_createdAt (id : ℕ) (role : Role) (r : UserRow) :
    (writeAt id (withRole role) r).createdAt = r.createdAt :=
  @writeAt_eq _ UserRow.createdAt id (withRole role) (fun _ => rfl) r

/-- `UPDATE users SET role = ?, is_admin = ? WHERE id = ?`. -/
def updateRole (u : Users) (id : ℕ) (role : Role) : Users :=
  u.modify id (withRole role) (keepsKeys_withRole role)

/-- The rows of the other ids. -/
def others (u : Users) (id : ℕ) : List UserRow := u.rows.filter fun r => decide (r.id ≠ id)

@[simp] lemma mem_others {u : Users} {id : ℕ} {r : UserRow} :
    r ∈ u.others id ↔ r ∈ u.rows ∧ r.id ≠ id := by
  simp [others]

lemma others_sublist (u : Users) (id : ℕ) : (u.others id).Sublist u.rows := List.filter_sublist

lemma ids_le_others (u : Users) (id : ℕ) : ∀ r ∈ u.others id, r.id ≤ u.lastId :=
  fun r hr => u.ids_le r (mem_others.mp hr).1

/-- `DELETE FROM users WHERE id = ?`. -/
def remove (u : Users) (id : ℕ) : Users where
  rows := u.others id
  lastId := u.lastId
  ids_nodup := u.ids_nodup.sublist ((u.others_sublist id).map _)
  ids_le := u.ids_le_others id
  names_nodup := u.names_nodup.sublist ((u.others_sublist id).map _)
  subjects_nodup := u.subjects_nodup.sublist ((u.others_sublist id).filterMap _)

/-! ## The operations -/

/-- The row of an id. -/
def row (u : Users) (id : ℕ) : Option UserRow := u.rows.find? fun r => decide (r.id = id)

/-- How many administrators there are. -/
def adminCount (u : Users) : ℕ := u.rows.countP UserRow.isAdmin

/-- Create a user only if none exist yet (first-run setup). -/
def createFirstUser (u : Users) (username passwordHash : Text) (now : ℤ) :
    Option UserRow × Users :=
  if u.rows.length ≠ 0 then (none, u)
  else
    u.insert { username, passwordHash, isAdmin := true, role := .admin, oidcSubject := none,
               createdAt := now }

def createUser (u : Users) (username passwordHash : Text) (role : Role) (now : ℤ) :
    Option UserRow × Users :=
  u.insert { username, passwordHash, isAdmin := decide (role = .admin), role, oidcSubject := none,
             createdAt := now }

/-- Stored as the password hash of single sign-on accounts: matches no password. -/
def ssoOnlyPassword : Text := "!sso".toList

/-- Create an account for a single sign-on identity. -/
def createSsoUser (u : Users) (username subject : Text) (role : Role) (now : ℤ) :
    Option UserRow × Users :=
  u.insert { username, passwordHash := ssoOnlyPassword, isAdmin := decide (role = .admin), role,
             oidcSubject := some subject, createdAt := now }

/-- Whether a user is the only administrator (`_is_last_admin`). -/
def isLastAdmin (u : Users) (id : ℕ) : Bool :=
  match u.row id with
  | none => false
  | some r => r.isAdmin && decide (u.adminCount ≤ 1)

/-- Change a user's role, unless it would remove the last administrator. -/
def setUserRole (u : Users) (id : ℕ) (role : Role) : Bool × Users :=
  if role ≠ .admin ∧ u.isLastAdmin id = true then (false, u) else (true, u.updateRole id role)

/-- Delete a user, unless it is the last administrator. -/
def deleteUser (u : Users) (id : ℕ) : Bool × Users :=
  if u.isLastAdmin id then (false, u) else (true, u.remove id)

/-! ## What each operation does -/

/-- An insertion either writes one row after the others, or nothing. -/
lemma insert_cases (u : Users) (n : NewUser) :
    u.insert n = (none, u) ∨
      (u.insert n).1 = some (u.newRow n) ∧ (u.insert n).2.rows = u.rows ++ [u.newRow n] := by
  unfold insert
  split_ifs with h
  · exact .inr ⟨rfl, rfl⟩
  · exact .inl rfl

lemma insert_refused {u : Users} {n : NewUser} (h : (u.insert n).1.isSome = false) :
    (u.insert n).2 = u := by
  rcases u.insert_cases n with hi | ⟨hi, -⟩
  · rw [hi]
  · rw [hi] at h
    exact absurd h (by simp)

/-- What an insertion that is accepted has written. -/
lemma insert_some {u u' : Users} {n : NewUser} {r : UserRow} (h : u.insert n = (some r, u')) :
    r = u.newRow n ∧ u'.rows = u.rows ++ [u.newRow n] ∧ u'.lastId = u.lastId + 1 := by
  unfold insert at h
  split_ifs at h with hfree
  · rw [Prod.mk.injEq, Option.some.injEq] at h
    obtain ⟨rfl, rfl⟩ := h
    exact ⟨rfl, rfl, rfl⟩
  · exact absurd (congrArg Prod.fst h) (by simp)

/-- Two rows of one id are one row. -/
lemma eq_of_id_eq (u : Users) {r r' : UserRow} (hr : r ∈ u.rows) (hr' : r' ∈ u.rows)
    (h : r.id = r'.id) : r = r' :=
  List.inj_on_of_nodup_map u.ids_nodup hr hr' h

/-- Two rows of one single sign-on identity are one row. -/
lemma eq_of_oidcSubject_eq (u : Users) {r r' : UserRow} (hr : r ∈ u.rows) (hr' : r' ∈ u.rows)
    {subject : Text} (h : r.oidcSubject = some subject) (h' : r'.oidcSubject = some subject) :
    r = r' := by
  have hnodup := u.subjects_nodup
  generalize u.rows = rows at hr hr' hnodup
  induction rows with
  | nil => exact absurd hr List.not_mem_nil
  | cons x xs ih =>
    cases hx : x.oidcSubject with
    | none =>
      rw [List.filterMap_cons_none hx] at hnodup
      rcases List.mem_cons.mp hr with rfl | hr
      · exact absurd (hx.symm.trans h) (by simp)
      · rcases List.mem_cons.mp hr' with rfl | hr'
        · exact absurd (hx.symm.trans h') (by simp)
        · exact ih hr hr' hnodup
    | some s =>
      rw [List.filterMap_cons_some hx, List.nodup_cons] at hnodup
      -- an identity of the first row is in no other row
      have hfirst : ∀ r ∈ xs, r.oidcSubject ≠ some s := fun r hr hsame =>
        hnodup.1 (List.mem_filterMap.mpr ⟨r, hr, hsame⟩)
      rcases List.mem_cons.mp hr with rfl | hrest
      · rcases List.mem_cons.mp hr' with rfl | hrest'
        · rfl
        · exact absurd (h'.trans (h.symm.trans hx)) (hfirst r' hrest')
      · rcases List.mem_cons.mp hr' with rfl | hrest'
        · exact absurd (h.trans (h'.symm.trans hx)) (hfirst r hrest)
        · exact ih hrest hrest' hnodup.2

lemma rows_nodup (u : Users) : u.rows.Nodup := u.ids_nodup.of_map _

lemma row_eq_some_iff {u : Users} {id : ℕ} {r : UserRow} :
    u.row id = some r ↔ r ∈ u.rows ∧ r.id = id := by
  constructor
  · intro h
    exact ⟨List.mem_of_find?_eq_some h, by simpa using List.find?_some h⟩
  · rintro ⟨hr, rfl⟩
    cases hrow : u.row r.id with
    | none => exact absurd (List.find?_eq_none.mp hrow r hr) (by simp)
    | some r' =>
      have hid : r'.id = r.id := by simpa using List.find?_some hrow
      rw [u.eq_of_id_eq (List.mem_of_find?_eq_some hrow) hr hid]

/-- Where there are two rows of a kind, there is one besides any given row. -/
lemma exists_ne_of_countP {l : List UserRow} (hl : l.Nodup) {p : UserRow → Bool}
    (h : 1 < l.countP p) (r : UserRow) : ∃ r' ∈ l, p r' = true ∧ r' ≠ r := by
  by_contra hnone
  push Not at hnone
  have hsub : l.filter p ⊆ [r] := by
    intro r' hr'
    obtain ⟨hmem, hp⟩ := List.mem_filter.mp hr'
    exact List.mem_singleton.mpr (hnone r' hmem hp)
  have hle := ((hl.filter p).subperm hsub).length_le
  rw [← List.countP_eq_length_filter, List.length_singleton] at hle
  omega

/-- An administrator that is not the last one leaves another. -/
lemma exists_other_admin {u : Users} {r : UserRow} (hr : r ∈ u.rows) (hadmin : r.isAdmin = true)
    (hlast : u.isLastAdmin r.id = false) : ∃ r' ∈ u.rows, r'.isAdmin = true ∧ r'.id ≠ r.id := by
  have hcount : 1 < u.adminCount := by
    simpa [isLastAdmin, row_eq_some_iff.mpr ⟨hr, rfl⟩, hadmin] using hlast
  obtain ⟨r', hr', ha, hne⟩ := exists_ne_of_countP u.rows_nodup hcount r
  exact ⟨r', hr', ha, fun hid => hne (u.eq_of_id_eq hr' hr hid)⟩

end Users

end Habeny.Auth
