import Habeny.Lib.JsonAccess
import Habeny.Lib.SharedCache
import Habeny.Lib.Transition

/-!
# Keys of the identity provider

The keys that sign ID tokens are in a document that the provider's metadata names.  Both documents
are cached, and the threads of all sign-ins share the cache: a thread looks under the lock, loads
without it and stores under it again, so another thread may store or drop in between, and what is
stored may have been loaded before what it replaces.

All the same a key that a thread comes back with was published by its own issuer, not too long ago;
and a token whose key is not found was looked for in a key set that is no older than the sign-in.
-/

namespace Habeny.Auth

open Habeny.Lib CodeText JsonValue TtlCache

/-! ## Documents -/

/-- The monotonic clock counts in microseconds. -/
def metadataTtl : ℤ := 60 * 60 * 1000000

/-- What the servers of the network answer. -/
structure Network where
  /-- the JSON that a request at a time is answered with, if it is answered with any -/
  answer : ℤ → CodeText → Option JsonValue
  /-- `HABENY_OIDC_ALLOW_HTTP` -/
  allowHttp : Bool

def isAsciiLetter (c : ℕ) : Bool := (65 ≤ c && c ≤ 90) || (97 ≤ c && c ≤ 122)

def isSchemeChar (c : ℕ) : Bool :=
  isAsciiLetter c || (48 ≤ c && c ≤ 57) || (lit "+-.").contains c

/-- The scheme of a URL, in lower case (`urlsplit(url).scheme`). -/
def urlScheme (url : CodeText) : CodeText :=
  let url := (url.dropWhile fun c => decide (c ≤ 32)).filter fun c => !(lit "\t\r\n").contains c
  match url.span fun c => c ≠ 58 with
  | (c :: cs, _ :: _) =>
    if isAsciiLetter c && cs.all isSchemeChar then
      (c :: cs).map fun c => if 65 ≤ c ∧ c ≤ 90 then c + 32 else c
    else []
  | _ => []

/-- A GET request; only the other users of `_http_json` send data. -/
def httpJson (net : Network) (now : ℤ) (url : CodeText) : Option JsonValue :=
  if urlScheme url ≠ lit "https" ∧ net.allowHttp = false then none else net.answer now url

def wellKnown (issuer : CodeText) : CodeText := issuer ++ lit "/.well-known/openid-configuration"

/-- `meta.get("issuer", "").rstrip("/")` -/
def issuerOf : JsonValue → Option CodeText
  | .dict es =>
    match (es.lookup (lit "issuer")).getD (.str []) with
    | .str t => some (t.rdropWhile fun c => c = 47)
    | _ => none
  | _ => none

/-- What `metadata` loads. -/
def loadMetadata (net : Network) (now : ℤ) (issuer : CodeText) : Option JsonValue :=
  (httpJson net now (wellKnown issuer)).filter fun m => decide (issuerOf m = some issuer)

def isText (t : CodeText) : JsonValue → Bool
  | .str s => decide (s = t)
  | _ => false

/-- Whether a key may be the one that has signed a token. -/
def fits (kid : Option CodeText) (jwk : JsonEntries) : Bool :=
  isText (lit "sig") ((jwk.lookup (lit "use")).getD (.str (lit "sig"))) &&
    kid.all fun k => isText k ((jwk.lookup (lit "kid")).getD .null)

/-- The first key that fits; what is no object raises when the loop comes to it. -/
def findKey (kid : Option CodeText) : List JsonValue → Option (Option JsonValue)
  | [] => some none
  | .dict jwk :: rest => if fits kid jwk then some (some (.dict jwk)) else findKey kid rest
  | _ :: _ => none

def scan (kid : Option CodeText) (jwks : JsonValue) : Option (Option JsonValue) :=
  (jwks.getItems (lit "keys")).bind (findKey kid)

/-! ## Threads -/

def metaKey (issuer : CodeText) : CodeText := lit "meta:" ++ issuer

def jwksKey (issuer : CodeText) : CodeText := lit "jwks:" ++ issuer

/-- What a thread calls, `metadata` or `_signing_key` for a token with or without a key's name. -/
inductive Want where
  | metadata
  | signingKey (kid : Option CodeText)

def Want.kid : Want → Option CodeText
  | .metadata => none
  | .signingKey kid => kid

/-- Where a thread is.  The second look at the keys is the one that refreshes; metadata that is
looked for on the way to the keys (`some`) is not the end of the call. -/
inductive KeyPhase where
  | drop
  | keysLook (refresh : Bool)
  | keysFetch (refresh : Bool) (url : CodeText)
  | keysStore (refresh : Bool) (jwks : JsonValue)
  | metaLook (forKeys : Option Bool)
  | metaFetch (forKeys : Option Bool)
  | metaStore (forKeys : Option Bool) (m : JsonValue)

structure KeyThread where
  issuer : CodeText
  want : Want
  began : ℤ
  /-- when its last step was -/
  last : ℤ
  phase : KeyPhase

inductive KeyAnswer where
  | metadata (m : JsonValue)
  | key (jwk : JsonValue)
  /-- the provider's signing key for this token wasn't found -/
  | notFound
  | failed

/-- A call that has ended. -/
structure Answered where
  issuer : CodeText
  want : Want
  began : ℤ
  ended : ℤ
  answer : KeyAnswer

structure KeyWorld where
  now : ℤ
  cache : TtlCache CodeText JsonValue
  threads : ℕ → Option KeyThread
  answers : List Answered

namespace KeyWorld

def initial : KeyWorld := { now := 0, cache := .empty, threads := fun _ => none, answers := [] }

def goOn (w : KeyWorld) (p : ℕ) (th : KeyThread) (phase : KeyPhase) : KeyWorld :=
  { w with threads := Function.update w.threads p (some { th with last := w.now, phase := phase }) }

def finish (w : KeyWorld) (p : ℕ) (th : KeyThread) (answer : KeyAnswer) : KeyWorld :=
  { w with
    threads := Function.update w.threads p none
    answers := w.answers ++ [⟨th.issuer, th.want, th.began, w.now, answer⟩] }

/-- The thread has a key set. -/
def gotKeys (w : KeyWorld) (p : ℕ) (th : KeyThread) (refresh : Bool) (jwks : JsonValue) :
    KeyWorld :=
  match scan th.want.kid jwks with
  | none => w.finish p th .failed
  | some (some jwk) => w.finish p th (.key jwk)
  | some none => if refresh then w.finish p th .notFound else w.goOn p th .drop

/-- The thread has metadata. -/
def gotMetadata (w : KeyWorld) (p : ℕ) (th : KeyThread) (forKeys : Option Bool) (m : JsonValue) :
    KeyWorld :=
  match forKeys with
  | none => w.finish p th (.metadata m)
  | some refresh =>
    match m.item (lit "jwks_uri") with
    | some (.str url) => w.goOn p th (.keysFetch refresh url)
    | _ => w.finish p th .failed

/-- The next step of a thread. -/
def move (net : Network) (w : KeyWorld) (p : ℕ) (th : KeyThread) : KeyWorld :=
  match th.phase with
  | .drop => { w with cache := w.cache.drop (jwksKey th.issuer) }.goOn p th (.keysLook true)
  | .keysLook refresh =>
    match w.cache.look (jwksKey th.issuer) w.now with
    | some jwks => w.gotKeys p th refresh jwks
    | none => w.goOn p th (.metaLook (some refresh))
  | .keysFetch refresh url =>
    match httpJson net w.now url with
    | some jwks => w.goOn p th (.keysStore refresh jwks)
    | none => w.finish p th .failed
  | .keysStore refresh jwks =>
    { w with cache := w.cache.store (jwksKey th.issuer) w.now metadataTtl jwks }.gotKeys
      p th refresh jwks
  | .metaLook forKeys =>
    match w.cache.look (metaKey th.issuer) w.now with
    | some m => w.gotMetadata p th forKeys m
    | none => w.goOn p th (.metaFetch forKeys)
  | .metaFetch forKeys =>
    match loadMetadata net w.now th.issuer with
    | some m => w.goOn p th (.metaStore forKeys m)
    | none => w.finish p th .failed
  | .metaStore forKeys m =>
    { w with cache := w.cache.store (metaKey th.issuer) w.now metadataTtl m }.gotMetadata
      p th forKeys m

end KeyWorld

inductive KeyAction where
  /-- time passes -/
  | wait (d : ℕ)
  | call (p : ℕ) (issuer : CodeText) (want : Want)
  | move (p : ℕ)

def Want.firstPhase : Want → KeyPhase
  | .metadata => .metaLook none
  | .signingKey _ => .keysLook false

def keyStep (net : Network) (w : KeyWorld) : KeyAction → Option KeyWorld
  | .wait d => some { w with now := w.now + d }
  | .call p issuer want =>
    match w.threads p with
    | none => some (w.goOn p ⟨issuer, want, w.now, w.now, want.firstPhase⟩ want.firstPhase)
    | some _ => none
  | .move p => (w.threads p).map fun th => w.move net p th

/-- A thread takes each step at most `d` after the one before. -/
def Prompt (d : ℤ) (w : KeyWorld) : KeyAction → Prop
  | .move p => ∀ th, w.threads p = some th → w.now ≤ th.last + d
  | _ => True

/-! ## Where documents come from -/

/-- A URL served a document at a time, and may be asked. -/
def ServedAt (net : Network) (url : CodeText) (doc : JsonValue) (t : ℤ) : Prop :=
  (urlScheme url = lit "https" ∨ net.allowHttp = true) ∧ net.answer t url = some doc

/-- The issuer served the metadata itself, and they name it. -/
structure Vouched (net : Network) (issuer : CodeText) (m : JsonValue) (t : ℤ) : Prop where
  served : ServedAt net (wellKnown issuer) m t
  issuer_eq : issuerOf m = some issuer

/-- A key set was served where metadata of the issuer say, and they were not old then. -/
structure Sourced (net : Network) (d : ℤ) (issuer : CodeText) (jwks : JsonValue) (t : ℤ) :
    Prop where
  chain : ∃ m url t₀, Vouched net issuer m t₀ ∧ m.item (lit "jwks_uri") = some (.str url) ∧
    ServedAt net url jwks t ∧ t₀ ≤ t ∧ t ≤ t₀ + metadataTtl + 2 * d

variable {net : Network} {d now t : ℤ} {issuer url : CodeText} {doc m jwks jwk : JsonValue}
  {kid : Option CodeText} {w w' : KeyWorld} {p q : ℕ} {th : KeyThread} {a : Answered}

lemma served_of_httpJson (h : httpJson net now url = some doc) : ServedAt net url doc now := by
  rw [httpJson] at h
  split_ifs at h with hplain
  refine ⟨?_, h⟩
  by_cases hs : urlScheme url = lit "https"
  · exact .inl hs
  · refine .inr ?_
    by_contra hallow
    exact hplain ⟨hs, by simpa using hallow⟩

lemma vouched_of_loadMetadata (h : loadMetadata net now issuer = some m) :
    Vouched net issuer m now := by
  rw [loadMetadata, Option.filter_eq_some_iff] at h
  exact ⟨served_of_httpJson h.1, of_decide_eq_true h.2⟩

lemma metaKey_inj {i j : CodeText} (h : metaKey i = metaKey j) : i = j :=
  List.append_cancel_left h

lemma jwksKey_inj {i j : CodeText} (h : jwksKey i = jwksKey j) : i = j :=
  List.append_cancel_left h

/-- The two kinds of documents are under different keys, whatever the issuers are called. -/
lemma metaKey_ne_jwksKey (i j : CodeText) : metaKey i ≠ jwksKey j := by
  intro h
  have hhead : (metaKey i).head? = (jwksKey j).head? := by rw [h]
  revert hhead
  simp [metaKey, jwksKey, lit]

/-! ## What holds in every state -/

/-- What is cached was loaded shortly before it was stored. -/
def CachedRight (net : Network) (d now : ℤ) (k : CodeText) (s : ℤ) (doc : JsonValue) : Prop :=
  s ≤ now ∧
  (∀ issuer, k = metaKey issuer → ∃ t, Vouched net issuer doc t ∧ t ≤ s ∧ s ≤ t + d) ∧
  (∀ issuer, k = jwksKey issuer → ∃ t, Sourced net d issuer doc t ∧ t ≤ s ∧ s ≤ t + d)

/-- What a thread has at hand was loaded in its last step, and what is cached when it looks again
was stored after it began. -/
def KeyPhase.Right (net : Network) (d : ℤ) (cache : TtlCache CodeText JsonValue)
    (th : KeyThread) : KeyPhase → Prop
  | .drop | .metaLook _ | .metaFetch _ => True
  | .keysLook refresh =>
    refresh = true → StoredSince metadataTtl (jwksKey th.issuer) th.began cache
  | .keysFetch _ url => ∃ m t, Vouched net th.issuer m t ∧
      m.item (lit "jwks_uri") = some (.str url) ∧ t ≤ th.last ∧ th.last ≤ t + metadataTtl + d
  | .keysStore _ jwks => Sourced net d th.issuer jwks th.last
  | .metaStore _ m => Vouched net th.issuer m th.last

/-- What a call is answered comes from its issuer. -/
def Answered.Right (net : Network) (d : ℤ) (a : Answered) : Prop :=
  match a.answer with
  | .metadata m => ∃ t, Vouched net a.issuer m t ∧ t ≤ a.ended ∧ a.ended ≤ t + metadataTtl + d
  | .key jwk => ∃ jwks t, Sourced net d a.issuer jwks t ∧ t ≤ a.ended ∧
      a.ended ≤ t + metadataTtl + d ∧ scan a.want.kid jwks = some (some jwk)
  | .notFound => ∃ jwks t, Sourced net d a.issuer jwks t ∧ a.began - d ≤ t ∧ t ≤ a.ended ∧
      scan a.want.kid jwks = some none
  | .failed => True

structure KeyThread.Right (net : Network) (d : ℤ) (w : KeyWorld) (th : KeyThread) : Prop where
  began_le : th.began ≤ th.last
  last_le : th.last ≤ w.now
  phase : th.phase.Right net d w.cache th

structure KeyWorld.Right (net : Network) (d : ℤ) (w : KeyWorld) : Prop where
  cache : Sound metadataTtl (CachedRight net d w.now) w.cache
  threads : ∀ p th, w.threads p = some th → th.Right net d w
  answers : ∀ a ∈ w.answers, a.Right net d

lemma CachedRight.mono {now' s : ℤ} {k : CodeText} (hle : now ≤ now')
    (h : CachedRight net d now k s doc) : CachedRight net d now' k s doc :=
  ⟨h.1.trans hle, h.2⟩

lemma cachedRight_meta (hm : Vouched net issuer m t) (hle : t ≤ now) (hd : now ≤ t + d) :
    CachedRight net d now (metaKey issuer) now m := by
  refine ⟨le_rfl, fun i hi => ?_, fun i hi => absurd hi (metaKey_ne_jwksKey _ _)⟩
  obtain rfl := metaKey_inj hi
  exact ⟨t, hm, hle, hd⟩

lemma cachedRight_jwks (hs : Sourced net d issuer jwks t) (hle : t ≤ now) (hd : now ≤ t + d) :
    CachedRight net d now (jwksKey issuer) now jwks := by
  refine ⟨le_rfl, fun i hi => absurd hi.symm (metaKey_ne_jwksKey _ _), fun i hi => ?_⟩
  obtain rfl := jwksKey_inj hi
  exact ⟨t, hs, hle, hd⟩

/-- A store or a drop under the keys' lock takes nothing from what other threads rely on. -/
lemma KeyPhase.Right.of_cache {cache cache' : TtlCache CodeText JsonValue} {phase : KeyPhase}
    (h : phase.Right net d cache th)
    (hc : ∀ issuer t, t ≤ now → StoredSince metadataTtl (jwksKey issuer) t cache →
      StoredSince metadataTtl (jwksKey issuer) t cache') (hbegan : th.began ≤ now) :
    phase.Right net d cache' th := by
  cases phase with
  | keysLook refresh => exact fun hr => hc _ _ hbegan (h hr)
  | drop => trivial
  | metaLook forKeys => trivial
  | metaFetch forKeys => trivial
  | keysFetch refresh url => exact h
  | keysStore refresh jwks => exact h
  | metaStore forKeys m => exact h

namespace KeyWorld

section Steps

variable {phase : KeyPhase} {answer : KeyAnswer} {cache : TtlCache CodeText JsonValue}

lemma threads_goOn_self : (w.goOn p th phase).threads p =
    some { th with last := w.now, phase := phase } := Function.update_self ..

lemma threads_goOn_of_ne (h : q ≠ p) : (w.goOn p th phase).threads q = w.threads q :=
  Function.update_of_ne h ..

lemma threads_finish_self : (w.finish p th answer).threads p = none := Function.update_self ..

lemma threads_finish_of_ne (h : q ≠ p) : (w.finish p th answer).threads q = w.threads q :=
  Function.update_of_ne h ..

/-- Another cache is as good, if what is stored in it is right and nothing older comes back. -/
lemma Right.setCache (hw : w.Right net d)
    (hcache : Sound metadataTtl (CachedRight net d w.now) cache)
    (hc : ∀ issuer t, t ≤ w.now → StoredSince metadataTtl (jwksKey issuer) t w.cache →
      StoredSince metadataTtl (jwksKey issuer) t cache) :
    Right net d { w with cache := cache } := by
  refine ⟨hcache, fun q th hq => ?_, hw.answers⟩
  have hth := hw.threads q th hq
  exact ⟨hth.began_le, hth.last_le, hth.phase.of_cache hc (hth.began_le.trans hth.last_le)⟩

lemma Right.goOn (hw : w.Right net d) (hbegan : th.began ≤ w.now)
    (hphase : phase.Right net d w.cache { th with last := w.now, phase := phase }) :
    (w.goOn p th phase).Right net d := by
  refine ⟨hw.cache, fun q th' hq => ?_, hw.answers⟩
  by_cases hqp : q = p
  · subst hqp
    rw [threads_goOn_self, Option.some.injEq] at hq
    subst hq
    exact ⟨hbegan, le_rfl, hphase⟩
  · rw [threads_goOn_of_ne hqp] at hq
    have hth := hw.threads q th' hq
    exact ⟨hth.began_le, hth.last_le, hth.phase⟩

lemma Right.finish (hw : w.Right net d)
    (hanswer : Answered.Right net d ⟨th.issuer, th.want, th.began, w.now, answer⟩) :
    (w.finish p th answer).Right net d := by
  refine ⟨hw.cache, fun q th' hq => ?_, fun a ha => ?_⟩
  · by_cases hqp : q = p
    · subst hqp
      rw [threads_finish_self] at hq
      cases hq
    · rw [threads_finish_of_ne hqp] at hq
      have hth := hw.threads q th' hq
      exact ⟨hth.began_le, hth.last_le, hth.phase⟩
  · rcases List.mem_append.mp ha with ha | ha
    · exact hw.answers a ha
    · rw [List.mem_singleton.mp ha]
      exact hanswer

/-- A thread that has a key set goes on as it should, if the set is not old, and is new where it
was to be. -/
lemma Right.gotKeys {refresh : Bool} (hw : w.Right net d) (hbegan : th.began ≤ w.now)
    (hs : Sourced net d th.issuer jwks t) (ht : t ≤ w.now) (hold : w.now ≤ t + metadataTtl + d)
    (hnew : refresh = true → th.began - d ≤ t) : (w.gotKeys p th refresh jwks).Right net d := by
  rw [KeyWorld.gotKeys]
  split
  · exact hw.finish trivial
  · next jwk hscan => exact hw.finish ⟨jwks, t, hs, ht, hold, hscan⟩
  · next hscan =>
    split_ifs with hrefresh
    · exact hw.finish ⟨jwks, t, hs, hnew hrefresh, ht, hscan⟩
    · exact hw.goOn hbegan trivial

lemma Right.gotMetadata {forKeys : Option Bool} (hw : w.Right net d) (hbegan : th.began ≤ w.now)
    (hm : Vouched net th.issuer m t) (ht : t ≤ w.now) (hold : w.now ≤ t + metadataTtl + d) :
    (w.gotMetadata p th forKeys m).Right net d := by
  cases forKeys with
  | none => exact hw.finish ⟨t, hm, ht, hold⟩
  | some refresh =>
    rw [KeyWorld.gotMetadata]
    split
    · next url hurl => exact hw.goOn hbegan ⟨m, t, hm, hurl, ht, hold⟩
    · exact hw.finish trivial

lemma storedSince_store {issuer : CodeText} {k : CodeText} (hle : t ≤ w.now)
    (h : StoredSince metadataTtl (jwksKey issuer) t w.cache) :
    StoredSince metadataTtl (jwksKey issuer) t (w.cache.store k w.now metadataTtl doc) :=
  Sound.store h fun _ => hle

/-- **A step of a thread** keeps everything right. -/
lemma Right.move (hw : w.Right net d) (hth : w.threads p = some th)
    (hprompt : w.now ≤ th.last + d) : (w.move net p th).Right net d := by
  obtain ⟨hbegan, hlast, hphase⟩ := hw.threads p th hth
  have hbegan' := hbegan.trans hlast
  have hd : 0 ≤ d := by omega
  have httl : 0 ≤ metadataTtl := by decide
  rw [KeyWorld.move]
  cases hph : th.phase with
  | drop =>
    refine (hw.setCache hw.cache.drop fun _ _ _ h => Sound.drop h).goOn hbegan' fun _ => ?_
    exact storedSince_drop
  | keysLook refresh =>
    rw [hph] at hphase
    have hsince : Sound metadataTtl
        (fun k s _ => refresh = true → k = jwksKey th.issuer → th.began ≤ s) w.cache :=
      fun k e he hr => hphase hr k e he
    dsimp only
    split
    · next jwks hlook =>
      obtain ⟨s, hfresh, ⟨hsnow, -, hsource⟩, hbegan_le⟩ := (hw.cache.and hsince).of_look hlook
      obtain ⟨t, ht, hts, hst⟩ := hsource _ rfl
      refine hw.gotKeys hbegan' ht (hts.trans hsnow) (by omega) fun hr => ?_
      have := hbegan_le hr rfl
      omega
    · exact hw.goOn hbegan' trivial
  | keysFetch refresh url =>
    rw [hph] at hphase
    obtain ⟨m, t, hm, hurl, ht, hold⟩ := hphase
    dsimp only
    split
    · next jwks hload =>
      refine hw.goOn hbegan' ⟨m, url, t, hm, hurl, served_of_httpJson hload, ht.trans hlast, ?_⟩
      show w.now ≤ _
      omega
    · exact hw.finish trivial
  | keysStore refresh jwks =>
    rw [hph] at hphase
    refine (hw.setCache (hw.cache.store (cachedRight_jwks hphase hlast hprompt))
      fun _ _ => storedSince_store).gotKeys hbegan' hphase hlast ?_ fun _ => ?_
    · show w.now ≤ _
      omega
    · omega
  | metaLook forKeys =>
    dsimp only
    split
    · next m hlook =>
      obtain ⟨s, hfresh, hsnow, hsource, -⟩ := hw.cache.of_look hlook
      obtain ⟨t, ht, hts, hst⟩ := hsource _ rfl
      exact hw.gotMetadata hbegan' ht (hts.trans hsnow) (by omega)
    · exact hw.goOn hbegan' trivial
  | metaFetch forKeys =>
    dsimp only
    split
    · next m hload => exact hw.goOn hbegan' (vouched_of_loadMetadata hload)
    · exact hw.finish trivial
  | metaStore forKeys m =>
    rw [hph] at hphase
    refine (hw.setCache (hw.cache.store (cachedRight_meta hphase hlast hprompt))
      fun _ _ => storedSince_store).gotMetadata hbegan' hphase hlast ?_
    show w.now ≤ _
    omega

end Steps

lemma Right.step {act : KeyAction} (hw : w.Right net d) (hg : Prompt d w act)
    (h : keyStep net w act = some w') : w'.Right net d := by
  cases act with
  | wait e =>
    rw [keyStep, Option.some.injEq] at h
    subst h
    have hle : w.now ≤ w.now + e := by omega
    exact ⟨hw.cache.mono fun _ _ _ => CachedRight.mono hle,
      fun p th hp => ⟨(hw.threads p th hp).began_le, (hw.threads p th hp).last_le.trans hle,
        (hw.threads p th hp).phase⟩, hw.answers⟩
  | call p issuer want =>
    rw [keyStep] at h
    split at h
    · rw [Option.some.injEq] at h
      subst h
      refine hw.goOn le_rfl ?_
      cases want with
      | metadata => trivial
      | signingKey kid => exact fun hr => Bool.noConfusion hr
    · cases h
  | move p =>
    obtain ⟨th, hth, rfl⟩ := Option.map_eq_some_iff.mp h
    exact hw.move hth (hg th hth)

lemma right_initial : initial.Right net d :=
  ⟨sound_empty, fun _ _ h => (Option.some_ne_none _ h.symm).elim, fun _ h =>
    absurd h List.not_mem_nil⟩

/-- **Every state** that prompt threads come to is right. -/
theorem right_of_run {acts : List KeyAction}
    (h : Run (keyStep net) (Prompt d) initial acts w) : w.Right net d :=
  h.invariant (fun hw hg hs => hw.step hg hs) right_initial

end KeyWorld

/-! ## Keys that are found, and keys that are not -/

lemma findKey_eq_some {keys : List JsonValue} (h : findKey kid keys = some (some jwk)) :
    ∃ es, jwk = .dict es ∧ jwk ∈ keys ∧ fits kid es = true := by
  induction keys with
  | nil => cases h
  | cons k rest ih =>
    cases k with
    | dict es =>
      rw [findKey] at h
      split_ifs at h with hfits
      · rw [Option.some.injEq, Option.some.injEq] at h
        subst h
        exact ⟨es, rfl, List.mem_cons_self, hfits⟩
      · obtain ⟨es', hes, hmem, hf⟩ := ih h
        exact ⟨es', hes, List.mem_cons_of_mem _ hmem, hf⟩
    | _ => cases h

lemma findKey_eq_none {keys : List JsonValue} (h : findKey kid keys = some none) :
    ∀ k ∈ keys, ∃ es, k = .dict es ∧ fits kid es = false := by
  induction keys with
  | nil => exact fun k hk => absurd hk List.not_mem_nil
  | cons k rest ih =>
    cases k with
    | dict es =>
      rw [findKey] at h
      split_ifs at h with hfits
      · cases h
      intro k' hk'
      rcases List.mem_cons.mp hk' with rfl | hk'
      · exact ⟨es, rfl, by simpa using hfits⟩
      · exact ih h k' hk'
    | _ => cases h

/-- **A token is refused for its key only if its issuer does not publish such a key**: at some time
after the sign-in began, or at most a step's time before, the key set was without it.  So a
provider that publishes a new key that long before it signs with it is never refused for what is
cached, however the sign-ins of other threads come in between. -/
theorem notFound_missing {acts : List KeyAction}
    (h : Run (keyStep net) (Prompt d) KeyWorld.initial acts w) (ha : a ∈ w.answers)
    (hnone : a.answer = .notFound) :
    ∃ jwks keys t, Sourced net d a.issuer jwks t ∧ jwks.getItems (lit "keys") = some keys ∧
      (∀ k ∈ keys, ∃ es, k = .dict es ∧ fits a.want.kid es = false) ∧
      a.began - d ≤ t ∧ t ≤ a.ended := by
  have hright := (KeyWorld.right_of_run h).answers a ha
  rw [Answered.Right, hnone] at hright
  obtain ⟨jwks, t, hs, hbegan, ht, hscan⟩ := hright
  obtain ⟨keys, hkeys, hfind⟩ := Option.bind_eq_some_iff.mp hscan
  exact ⟨jwks, keys, t, hs, hkeys, findKey_eq_none hfind, hbegan, ht⟩

/-- A provider that has changed its key at time 5. -/
def rotating : Network where
  answer t url :=
    if url = lit "https://id/.well-known/openid-configuration" then
      some (.dict [(lit "issuer", .str (lit "https://id/")),
        (lit "jwks_uri", .str (lit "https://id/k"))])
    else if url = lit "https://id/k" then
      let kid := if t < 5 then "a" else "b"
      some (.dict [(lit "keys", .list [.dict [(lit "kid", .str (lit kid))]])])
    else none
  allowHttp := false

/-- A whole sign-in, from the first look to the answer. -/
def signIn (p : ℕ) (kid : String) : List KeyAction :=
  .call p (lit "https://id") (.signingKey (some (lit kid))) :: List.replicate 6 (.move p)

/-- A sign-in with the old key, one with the new key, and one more with the old key. -/
def threeSignIns : List KeyAction := signIn 0 "a" ++ [.wait 7] ++ signIn 1 "b" ++ signIn 2 "a"

def promptly (w : KeyWorld) : KeyAction → Bool
  | .move p => (w.threads p).all fun th => decide (w.now ≤ th.last)
  | _ => true

lemma prompt_of_promptly {act : KeyAction} (h : promptly w act = true) : Prompt 0 w act := by
  cases act with
  | move p =>
    intro th hth
    rw [promptly, hth] at h
    rw [add_zero]
    exact of_decide_eq_true h
  | wait e => trivial
  | call p issuer want => trivial

lemma threeSignIns_answers {f : Answered → Bool}
    (hf : (exec (keyStep rotating) KeyWorld.initial threeSignIns).any
      (fun w => w.answers.any f) = true) :
    ∃ w, Run (keyStep rotating) (Prompt 0) KeyWorld.initial threeSignIns w ∧
      ∃ a ∈ w.answers, f a = true := by
  have hm : execMeets (keyStep rotating) promptly KeyWorld.initial threeSignIns = true := by
    decide +kernel
  cases hexec : exec (keyStep rotating) KeyWorld.initial threeSignIns with
  | none =>
    rw [hexec] at hf
    cases hf
  | some w =>
    rw [hexec] at hf
    exact ⟨w, run_of_execMeets (fun _ _ => prompt_of_promptly) hexec hm, List.any_eq_true.mp hf⟩

/-- And the old one is not. -/
theorem notFound_missing_rotating : ∃ a : Answered, a.answer = .notFound ∧
    ∃ jwks keys t, Sourced rotating 0 a.issuer jwks t ∧
      jwks.getItems (lit "keys") = some keys ∧
      (∀ k ∈ keys, ∃ es, k = .dict es ∧ fits a.want.kid es = false) ∧
      a.began - 0 ≤ t ∧ t ≤ a.ended := by
  obtain ⟨w, hrun, a, ha, hf⟩ := threeSignIns_answers
    (f := fun a => match a.answer with
      | .notFound => true
      | _ => false) (by decide +kernel)
  cases hanswer : a.answer with
  | notFound => exact ⟨a, hanswer, notFound_missing hrun ha hanswer⟩
  | _ => simp [hanswer] at hf

end Habeny.Auth
