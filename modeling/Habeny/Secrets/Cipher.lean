import Habeny.Lib.Utf8

/-!
# Secrets at rest

A secret is stored as a token of an authenticated cipher behind a mark.  What begins with the mark
is taken to be encrypted, and anything else is stored in plain from before secrets were encrypted;
so encrypting what is stored changes nothing of what is read (`decrypt_encrypt_again`), and a text
that does not begin with the mark is read as it was stored (`decrypt_encrypt`).

The key is in the environment or in a file, which is made when there is none.  Loading it changes
the file and what is kept in memory, but not which key it is (`Keys.cipher_use`).
-/

namespace Habeny.Secrets

open Habeny.Lib Utf8

/-! ## The cipher -/

/-- A character of URL-safe Base64. -/
def base64Url (c : Char) : Bool := c.isAlphanum || decide (c = '-' ∨ c = '_' ∨ c = '=')

/-- `bytes.strip()` -/
def stripBytes (s : List UInt8) : List UInt8 :=
  let blank (b : UInt8) : Bool := decide (b = 32 ∨ 9 ≤ b ∧ b ≤ 13)
  (s.dropWhile blank).rdropWhile blank

/-- A correct authenticated cipher, with the keys that it takes and what it draws for a token. -/
structure Fernet where
  Key : Type
  Coins : Type
  /-- `Fernet(key)`, nothing for a `ValueError`. -/
  ofBytes : List UInt8 → Option Key
  generateKey : Coins → List UInt8
  /-- The text of a token. -/
  encrypt : Key → Coins → List UInt8 → Text
  /-- The bytes of a token, nothing for an `InvalidToken`. -/
  decrypt : Key → Text → Option (List UInt8)
  token : ∀ key coins data, ∀ c ∈ encrypt key coins data, base64Url c = true
  correct : ∀ key coins data, decrypt key (encrypt key coins data) = some data
  authentic : ∀ key key' coins data, key ≠ key' → decrypt key' (encrypt key coins data) = none
  generated : ∀ coins, (ofBytes (generateKey coins)).isSome = true
  stripped : ∀ coins, stripBytes (generateKey coins) = generateKey coins

/-- What using the cipher may raise: a key that it does not take, and a token of no text. -/
inductive SecretError where
  | badKey
  | noText
  deriving DecidableEq

/-! ## The key -/

variable {F : Fernet}

/-- The key as it is configured (`_load_key`). -/
def loadKey (envKey : Text) (file : Option (List UInt8)) (generated : List UInt8) : List UInt8 :=
  if envKey ≠ [] then encode envKey
  else
    match file with
    | some content => stripBytes content
    | none => generated

/-- The configured key, the key file, what is drawn if a key has to be made, and the cipher that is
kept in memory. -/
structure Keys (F : Fernet) where
  envKey : Text
  file : Option (List UInt8)
  coins : F.Coins
  kept : Option F.Key
  kept_eq : ∀ key ∈ kept, F.ofBytes (loadKey envKey file (F.generateKey coins)) = some key

namespace Keys

variable (k : Keys F)

def load : List UInt8 := loadKey k.envKey k.file (F.generateKey k.coins)

/-- The cipher that is used. -/
def cipher : Except SecretError F.Key :=
  match k.kept with
  | some key => .ok key
  | none => (F.ofBytes k.load).elim (.error .badKey) .ok

/-- What is kept is the configured key. -/
lemma cipher_eq : k.cipher = (F.ofBytes k.load).elim (.error .badKey) .ok := by
  unfold cipher
  cases hkept : k.kept with
  | some key =>
    have hload : F.ofBytes k.load = some key := k.kept_eq key hkept
    rw [hload]
    rfl
  | none => rfl

/-- The key file after the cipher was used. -/
def fileAfter : Option (List UInt8) :=
  if k.kept.isSome = true ∨ k.envKey ≠ [] then k.file
  else some (k.file.getD (F.generateKey k.coins))

lemma load_fileAfter : loadKey k.envKey k.fileAfter (F.generateKey k.coins) = k.load := by
  unfold fileAfter
  split_ifs with h
  · rfl
  · rw [not_or, not_not] at h
    unfold load loadKey
    rw [h.2]
    cases k.file with
    | some content => rfl
    | none => exact F.stripped k.coins

lemma ofBytes_of_cipher {key : F.Key} (h : key ∈ k.cipher.toOption) :
    F.ofBytes k.load = some key := by
  rw [cipher_eq] at h
  cases hload : F.ofBytes k.load with
  | none => simp [hload, Except.toOption] at h
  | some key' =>
    rw [hload] at h
    exact h

/-- Use the cipher (`_cipher`). -/
def use : Keys F where
  envKey := k.envKey
  file := k.fileAfter
  coins := k.coins
  kept := k.cipher.toOption
  kept_eq := fun key hkey => by rw [load_fileAfter]; exact k.ofBytes_of_cipher hkey

/-- The program is started again. -/
def restart : Keys F where
  envKey := k.envKey
  file := k.file
  coins := k.coins
  kept := none
  kept_eq := fun _ h => by cases h

/-- **The key stays the same** when it is loaded, also when its file is made for that. -/
theorem cipher_use : k.use.cipher = k.cipher := by
  have hload : k.use.load = k.load := k.load_fileAfter
  rw [cipher_eq, cipher_eq, hload]

theorem cipher_restart : k.restart.cipher = k.cipher := by
  rw [cipher_eq, cipher_eq]
  rfl

/-- A key file that was made is a key. -/
theorem cipher_generated (henv : k.envKey = []) (hfile : k.file = none) :
    ∃ key, k.cipher = .ok key := by
  obtain ⟨key, hkey⟩ := Option.isSome_iff_exists.mp (F.generated k.coins)
  have hload : k.load = F.generateKey k.coins := by
    unfold load loadKey
    rw [henv, hfile]
    rfl
  exact ⟨key, by rw [cipher_eq, hload, hkey]; rfl⟩

end Keys

/-! ## Stored secrets -/

/-- `PREFIX` -/
def mark : Text := "enc:v1:".toList

def isEncrypted (value : Option Text) : Bool := value.any fun v => decide (mark <+: v)

/-- Encrypt for storage; nothing, the empty text and what is encrypted already pass through. -/
def encryptSecret (cipher : Except SecretError F.Key) (coins : F.Coins) (value : Option Text) :
    Except SecretError (Option Text) :=
  match value with
  | none => .ok none
  | some v =>
    if v = [] ∨ isEncrypted (some v) = true then .ok (some v)
    else cipher.map fun key => some (mark ++ F.encrypt key coins (encode v))

/-- Decrypt what is stored; what is in plain passes through, and what the key does not decrypt is
nothing. -/
def decryptSecret (cipher : Except SecretError F.Key) (value : Option Text) :
    Except SecretError (Option Text) :=
  match value with
  | none => .ok none
  | some v =>
    if isEncrypted (some v) = false then .ok (some v)
    else
      match cipher with
      | .error e => .error e
      | .ok key =>
        match F.decrypt key (v.drop mark.length) with
        | none => .ok none
        | some data =>
          match decode data with
          | some t => .ok (some t)
          | none => .error .noText

variable {cipher : Except SecretError F.Key} {key key' : F.Key} {coins : F.Coins} {v t : Text}

lemma isEncrypted_some : isEncrypted (some v) = true ↔ mark <+: v := by simp [isEncrypted]

lemma isEncrypted_mark_append : isEncrypted (some (mark ++ t)) = true :=
  isEncrypted_some.mpr (List.prefix_append mark t)

@[simp] lemma encryptSecret_none : encryptSecret cipher coins none = .ok none := rfl

@[simp] lemma encryptSecret_nil : encryptSecret cipher coins (some []) = .ok (some []) := by
  rw [encryptSecret, if_pos (.inl rfl)]

/-- What is encrypted already passes through. -/
lemma encryptSecret_of_isEncrypted (h : isEncrypted (some v) = true) :
    encryptSecret cipher coins (some v) = .ok (some v) :=
  if_pos (.inr h)

lemma encryptSecret_of_plain (hne : v ≠ []) (h : isEncrypted (some v) = false) :
    encryptSecret cipher coins (some v)
      = cipher.map fun key => some (mark ++ F.encrypt key coins (encode v)) :=
  if_neg (by simp [hne, h])

lemma decryptSecret_of_plain (h : isEncrypted (some v) = false) :
    decryptSecret cipher (some v) = .ok (some v) :=
  if_pos h

lemma decryptSecret_mark_append :
    decryptSecret (.ok key) (some (mark ++ t))
      = match F.decrypt key t with
        | none => .ok none
        | some data =>
          match decode data with
          | some t => .ok (some t)
          | none => .error .noText := by
  rw [decryptSecret, if_neg (by rw [isEncrypted_mark_append]; decide), List.drop_left]

lemma isEncrypted_nil : isEncrypted (some []) = false := by decide

/-- A key encrypts whatever is given. -/
lemma exists_encryptSecret (key : F.Key) (coins : F.Coins) (value : Option Text) :
    ∃ stored, encryptSecret (.ok key) coins value = .ok stored := by
  cases value with
  | none => exact ⟨none, rfl⟩
  | some v =>
    rw [encryptSecret]
    split_ifs
    · exact ⟨some v, rfl⟩
    · exact ⟨_, rfl⟩

/-- **What is stored is read**, if it does not begin with the mark. -/
theorem decrypt_encrypt {stored : Option Text} (h : isEncrypted (some v) = false)
    (hstored : encryptSecret cipher coins (some v) = .ok stored) :
    decryptSecret cipher stored = .ok (some v) := by
  by_cases hne : v = []
  · subst hne
    rw [encryptSecret_nil, Except.ok.injEq] at hstored
    rw [← hstored, decryptSecret_of_plain isEncrypted_nil]
  · rw [encryptSecret_of_plain hne h] at hstored
    cases cipher with
    | error e => cases hstored
    | ok key =>
      obtain rfl := Except.ok.inj hstored
      have htext : decode (encode v) = some v := decode_eq_some_iff.mpr rfl
      rw [decryptSecret_mark_append, F.correct]
      simp only [htext]

/-- **Encrypting what is stored** changes nothing of what is read. -/
theorem decrypt_encrypt_again {value stored : Option Text}
    (hstored : encryptSecret cipher coins value = .ok stored) :
    decryptSecret cipher stored = decryptSecret cipher value := by
  cases value with
  | none =>
    obtain rfl := Except.ok.inj hstored
    rfl
  | some v =>
    cases h : isEncrypted (some v) with
    | true =>
      rw [encryptSecret_of_isEncrypted h, Except.ok.injEq] at hstored
      rw [hstored]
    | false => rw [decrypt_encrypt h hstored, decryptSecret_of_plain h]

/-- What was encrypted once is not encrypted twice. -/
theorem encrypt_encrypt {coins' : F.Coins} {value stored : Option Text}
    (hstored : encryptSecret cipher coins value = .ok stored) :
    encryptSecret cipher coins' stored = .ok stored := by
  cases value with
  | none =>
    obtain rfl := Except.ok.inj hstored
    rfl
  | some v =>
    by_cases hne : v = []
    · subst hne
      rw [encryptSecret_nil, Except.ok.injEq] at hstored
      rw [← hstored, encryptSecret_nil]
    · cases h : isEncrypted (some v) with
      | true =>
        rw [encryptSecret_of_isEncrypted h, Except.ok.injEq] at hstored
        rw [← hstored, encryptSecret_of_isEncrypted h]
      | false =>
        rw [encryptSecret_of_plain hne h] at hstored
        cases cipher with
        | error e => cases hstored
        | ok key =>
          obtain rfl := Except.ok.inj hstored
          exact encryptSecret_of_isEncrypted isEncrypted_mark_append

/-- **What another key encrypted is unreadable.** -/
theorem decrypt_other_key {stored : Option Text} (hkey : key ≠ key') (hne : v ≠ [])
    (h : isEncrypted (some v) = false)
    (hstored : encryptSecret (.ok key) coins (some v) = .ok stored) :
    decryptSecret (.ok key') stored = .ok none := by
  rw [encryptSecret_of_plain hne h] at hstored
  obtain rfl := Except.ok.inj hstored
  rw [decryptSecret_mark_append, F.authentic key key' coins _ hkey]

/-- What is stored of a secret is a token of it behind the mark. -/
theorem stored_token {stored : Option Text} (hne : v ≠ []) (h : isEncrypted (some v) = false)
    (hstored : encryptSecret (.ok key) coins (some v) = .ok stored) :
    ∃ t, stored = some (mark ++ t) ∧ (∀ c ∈ t, base64Url c = true) ∧
      F.decrypt key t = some (encode v) := by
  rw [encryptSecret_of_plain hne h] at hstored
  obtain rfl := Except.ok.inj hstored
  exact ⟨_, rfl, F.token key coins _, F.correct key coins _⟩

/-! ## A cipher with two keys -/

/-- Half a byte as a letter. -/
def halfLetter (n : ℕ) : Char := Char.ofNat (65 + n)

def halves : List UInt8 → Text
  | [] => []
  | b :: data => halfLetter (b.toNat / 16) :: halfLetter (b.toNat % 16) :: halves data

def unhalves : Text → Option (List UInt8)
  | [] => some []
  | [_] => none
  | a :: b :: t => (unhalves t).map fun data =>
      UInt8.ofNat (16 * (a.toNat - 65) + (b.toNat - 65)) :: data

lemma halfLetter_toNat {n : ℕ} (h : n < 16) : (halfLetter n).toNat = 65 + n := by
  have hall : ∀ n < 16, (halfLetter n).toNat = 65 + n := by decide
  exact hall n h

lemma halfLetter_base64Url {n : ℕ} (h : n < 16) : base64Url (halfLetter n) = true := by
  have hall : ∀ n < 16, base64Url (halfLetter n) = true := by decide
  exact hall n h

lemma unhalves_halves (data : List UInt8) : unhalves (halves data) = some data := by
  induction data with
  | nil => rfl
  | cons b data ih =>
    have hlt := b.toNat_lt
    have hhigh := halfLetter_toNat (n := b.toNat / 16) (by omega)
    have hlow := halfLetter_toNat (n := b.toNat % 16) (by omega)
    have hbyte : 16 * (b.toNat / 16) + b.toNat % 16 = b.toNat := Nat.div_add_mod b.toNat 16
    rw [halves, unhalves, ih, hhigh, hlow, Nat.add_sub_cancel_left, Nat.add_sub_cancel_left, hbyte,
      UInt8.ofNat_toNat]
    rfl

lemma halves_base64Url (data : List UInt8) : ∀ c ∈ halves data, base64Url c = true := by
  induction data with
  | nil => exact fun c hc => absurd hc List.not_mem_nil
  | cons b data ih =>
    have hlt := b.toNat_lt
    intro c hc
    rcases List.mem_cons.mp hc with rfl | hc
    · exact halfLetter_base64Url (by omega)
    · rcases List.mem_cons.mp hc with rfl | hc
      · exact halfLetter_base64Url (by omega)
      · exact ih c hc

/-- The first letter of a token under a key. -/
def keyLetter (key : Bool) : Char := if key then 'g' else 'h'

lemma keyLetter_injective {key key' : Bool} (h : keyLetter key = keyLetter key') : key = key' := by
  revert key key'
  decide

lemma keyLetter_base64Url (key : Bool) : base64Url (keyLetter key) = true := by
  cases key <;> decide

/-- What a token of letters says under a key. -/
def readHalves (key : Bool) : Text → Option (List UInt8)
  | [] => none
  | c :: t => if c = keyLetter key then unhalves t else none

lemma readHalves_self (key : Bool) (data : List UInt8) :
    readHalves key (keyLetter key :: halves data) = some data := by
  rw [readHalves, if_pos rfl, unhalves_halves]

lemma readHalves_other {key key' : Bool} (h : key ≠ key') (data : List UInt8) :
    readHalves key' (keyLetter key :: halves data) = none := by
  rw [readHalves, if_neg fun heq => h (keyLetter_injective heq)]

lemma stripBytes_letter : stripBytes [65] = [65] := by decide

/-- A cipher whose tokens are the bytes in letters, behind a letter for the key. -/
def twoKeys : Fernet where
  Key := Bool
  Coins := Unit
  ofBytes := fun data => if data = [65] then some true else if data = [66] then some false else none
  generateKey := fun _ => [65]
  encrypt := fun key _ data => keyLetter key :: halves data
  decrypt := readHalves
  token := fun key _ data =>
    List.forall_mem_cons.mpr ⟨keyLetter_base64Url key, halves_base64Url data⟩
  correct := fun key _ data => readHalves_self key data
  authentic := fun _ _ _ data h => readHalves_other h data
  generated := fun _ => rfl
  stripped := fun _ => stripBytes_letter

end Habeny.Secrets
