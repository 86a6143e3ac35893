import Habeny.Hosts.Tls

/-!
# The token goes over an accepted connection, but for one

One lemma says what each program of the HTTP client does under the monitor: it sends the token
only where that is allowed, and where a certificate was not accepted it ends with an error for
that host.  The operations are made of these programs, so they inherit it.  A relayed
WebSocket inherits it for a host that is not pinned; for a pinned one the token is the first
thing after the TLS connection, which the monitor forbids whatever the certificate is.
-/

namespace Habeny.Hosts

open Habeny.Lib

variable {C : Type} {T : Trust C} {h : Host} {l : List Host}

/-! ## What the programs keep -/

/-- No further host has had its certificate refused. -/
def unchanged (l : List Host) (m : WatchState C) : Prop := m.unaccepted = l

/-- The token may be sent now. -/
def mayToken (T : Trust C) (l : List Host) (m : WatchState C) : Prop :=
  m.unaccepted = l ∧ watchToken T m .token = some m

/-- At most this host's certificate was refused. -/
def atMost (h : Host) (l : List Host) (m : WatchState C) : Prop :=
  m.unaccepted = l ∨ m.unaccepted = h :: l

/-- A connection whose certificate was not looked at yet. -/
def onPresented (h : Host) (c : C) (l : List Host) (m : WatchState C) : Prop :=
  m = ⟨.tls h c false, l⟩

lemma atMost_of_unchanged {m : WatchState C} (hm : unchanged l m) : atMost h l m := Or.inl hm

/-- A program of the HTTP client keeps to the monitor: its result comes without a refused
certificate, its errors with at most the one of its host. -/
def KeepsToken (T : Trust C) (h : Host) {α : Type} (p : NetProg C α) : Prop :=
  ∀ l, Watched (watchToken T) (unchanged l) p (fun _ => unchanged l) (fun _ => atMost h l)

lemma KeepsToken.ret {α : Type} (a : α) : KeepsToken T h (Prog.ret a) :=
  fun _ => Watched.ret fun _ hm => hm

lemma KeepsToken.fail {α : Type} (e : HostError) :
    KeepsToken T h (Prog.fail e : NetProg C α) :=
  fun _ => Watched.fail fun _ hm => atMost_of_unchanged hm

lemma KeepsToken.bind {α β : Type} {p : NetProg C α} {k : α → NetProg C β}
    (hp : KeepsToken T h p) (hk : ∀ a, KeepsToken T h (k a)) : KeepsToken T h (p >>= k) :=
  fun l => Watched.bind (hp l) fun a => hk a l

/-! ## The HTTP client -/

lemma nextPeer_watched {pre : WatchState C → Prop} {err : HostError → WatchState C → Prop} :
    Watched (watchToken T) pre nextPeer (fun _ => pre) err :=
  Watched.take fun _ _ hm => hm

lemma emit_presented_watched {c : C} {pre : WatchState C → Prop}
    (hpre : ∀ m, pre m → unchanged l m) {err : HostError → WatchState C → Prop} :
    Watched (watchToken T) pre (Prog.emit (.presented h c) : NetProg C Unit)
      (fun _ => onPresented h c l) err :=
  Watched.emit fun m hm => ⟨⟨.tls h c false, m.unaccepted⟩, rfl, by
    rw [onPresented, hpre m hm]⟩

lemma emit_closed_watched {pre Q : WatchState C → Prop}
    (hpost : ∀ m, pre m → Q { m with link := .none })
    {err : HostError → WatchState C → Prop} :
    Watched (watchToken T) pre (Prog.emit .closed : NetProg C Unit) (fun _ => Q) err :=
  Watched.emit fun m hm => ⟨_, rfl, hpost m hm⟩

lemma peerFingerprint_watched (l' : List Host) :
    Watched (watchToken T) (unchanged l') (peerFingerprint T h) (fun _ => unchanged l')
      (fun _ => unchanged l') := by
  refine Watched.bind nextPeer_watched fun p => ?_
  cases p with
  | down detail => exact Watched.fail fun _ hm => hm
  | up cert answers upgrades =>
    refine Watched.bind (emit_presented_watched fun _ hm => hm) fun _ => ?_
    refine Watched.bind (emit_closed_watched (Q := unchanged l') ?_) fun _ => ?_
    · rintro m rfl
      rfl
    · exact Watched.ret fun _ hm => hm

/-- A connection is handed out only once its certificate was accepted. -/
lemma openConn_watched (T : Trust C) (h : Host) (l : List Host) :
    Watched (watchToken T) (unchanged l) (openConn T h) (fun _ => mayToken T l)
      (fun _ => atMost h l) := by
  refine Watched.bind nextPeer_watched fun p => ?_
  cases p with
  | down detail => exact Watched.fail fun _ hm => atMost_of_unchanged hm
  | up cert answers upgrades =>
    dsimp only
    by_cases hurl : isHttps h.url = false
    · rw [if_pos hurl]
      refine Watched.bind (R := fun _ => mayToken T l) (Watched.emit ?_) fun _ => ?_
      · rintro m rfl
        exact ⟨_, rfl, rfl, by simp [watchToken, hurl]⟩
      · exact Watched.ret fun _ hm => hm
    · rw [if_neg hurl]
      cases hpin : h.pin with
      | some fp =>
        refine Watched.bind (emit_presented_watched fun _ hm => hm) fun _ => ?_
        split_ifs with hfp
        · refine Watched.bind (R := fun _ => mayToken T l) (Watched.emit ?_) fun _ => ?_
          · rintro m rfl
            exact ⟨⟨.tls h cert true, l⟩, rfl, rfl, by simp [watchToken, Trust.accepts, hpin, hfp]⟩
          · exact Watched.ret fun _ hm => hm
        · refine Watched.bind (R := fun _ => unchanged (h :: l)) (Watched.emit ?_) fun _ => ?_
          · rintro m rfl
            exact ⟨⟨.tls h cert false, h :: l⟩, rfl, rfl⟩
          · refine Watched.bind (emit_closed_watched (Q := unchanged (h :: l)) ?_) fun _ => ?_
            · exact fun _ hm => hm
            · exact Watched.fail fun _ hm => Or.inr hm
      | none =>
        dsimp only
        split_ifs with hver
        · refine Watched.bind (R := fun _ => mayToken T l) (Watched.emit ?_) fun _ => ?_
          · rintro m rfl
            exact ⟨⟨.tls h cert true, _⟩, rfl, rfl, by simp [watchToken, Trust.accepts, hpin, hver]⟩
          · exact Watched.ret fun _ hm => hm
        · refine Watched.bind (R := fun _ => unchanged (h :: l)) (Watched.emit ?_) fun _ => ?_
          · rintro m rfl
            exact ⟨_, rfl, rfl⟩
          · refine Watched.bind ((peerFingerprint_watched (h :: l)).mono (fun _ hm => hm)
              (fun _ _ hm => hm) (fun _ _ hm => Or.inr hm)) fun fp => ?_
            exact Watched.fail fun _ hm => Or.inr hm

lemma call_keepsToken (T : Trust C) (h : Host) (target : Text) :
    KeepsToken T h (call T h target) := by
  intro l
  have hclose {α : Type} {p : NetProg C α} (hp : KeepsToken T h p) :
      Watched (watchToken T) (mayToken T l) (Prog.emit .closed >>= fun _ => p)
        (fun _ => unchanged l) (fun _ => atMost h l) :=
    Watched.bind (emit_closed_watched fun _ hm => hm.1) fun _ => hp l
  refine Watched.bind (openConn_watched T h l) fun answers => ?_
  split_ifs with hsend
  · refine Watched.bind (R := fun _ => mayToken T l) ?_ fun _ => hclose ?_
    · exact Watched.emit fun m hm => ⟨m, hm.2, hm⟩
    · cases answers target with
      | ok reply => exact KeepsToken.ret reply
      | error detail => exact KeepsToken.fail _
  · exact hclose (KeepsToken.fail _)

lemma getJson_keepsToken (T : Trust C) (h : Host) (path : Text) :
    KeepsToken T h (getJson T h path) := by
  refine (call_keepsToken T h _).bind fun reply => ?_
  cases reply.payload with
  | none => exact KeepsToken.fail _
  | some payload =>
    dsimp only
    split_ifs
    · exact KeepsToken.fail _
    · exact KeepsToken.fail _
    · exact KeepsToken.ret _

lemma probe_keepsToken (T : Trust C) (h : Host) : KeepsToken T h (probe T h) := by
  refine (getJson_keepsToken T h _).bind fun status => ?_
  cases status.user with
  | none => exact KeepsToken.fail _
  | some role => exact (getJson_keepsToken T h _).bind fun _ => KeepsToken.ret _

lemma fetchOverview_keepsToken (T : Trust C) (h : Host) : KeepsToken T h (fetchOverview T h) :=
  (getJson_keepsToken T h _).bind fun _ =>
    (getJson_keepsToken T h _).bind fun _ =>
      (getJson_keepsToken T h _).bind fun _ => KeepsToken.ret _

/-! ## The WebSocket client -/

/-- For a host that is not pinned, or in the clear, the connection is accepted before the
handshake. -/
lemma wsOpen_watched (T : Trust C) {h : Host} (hpin : h.pin = none ∨ isHttps h.url = false)
    (l : List Host) :
    Watched (watchToken T) (unchanged l) (wsOpen T h) (fun _ => mayToken T l)
      (fun _ => atMost h l) := by
  refine Watched.bind nextPeer_watched fun p => ?_
  cases p with
  | down detail => exact Watched.fail fun _ hm => atMost_of_unchanged hm
  | up cert answers upgrades =>
    dsimp only
    split_ifs with hurl hsome hver
    · refine Watched.bind (R := fun _ => mayToken T l) (Watched.emit ?_) fun _ => ?_
      · rintro m rfl
        exact ⟨_, rfl, rfl, by simp [watchToken, hurl]⟩
      · exact Watched.ret fun _ hm => hm
    · exfalso
      rcases hpin with hpin | hpin
      · simp [hpin] at hsome
      · exact hurl hpin
    · have hnone : h.pin = none := by simpa using hsome
      refine Watched.bind (R := fun _ => mayToken T l) (Watched.emit ?_) fun _ => ?_
      · rintro m rfl
        exact ⟨⟨.tls h cert true, _⟩, rfl, rfl, by simp [watchToken, Trust.accepts, hnone, hver]⟩
      · exact Watched.ret fun _ hm => hm
    · refine Watched.bind (R := fun _ => unchanged (h :: l)) (Watched.emit ?_) fun _ => ?_
      · rintro m rfl
        exact ⟨_, rfl, rfl⟩
      · exact Watched.fail fun _ hm => Or.inr hm

lemma relayWs_keepsToken (T : Trust C) {h : Host}
    (hpin : h.pin = none ∨ isHttps h.url = false) : KeepsToken T h (relayWs T h) := by
  have hconnect : KeepsToken T h (wsConnect T h) := by
    intro l
    refine Watched.bind (wsOpen_watched T hpin l) fun ⟨cert, upgrades⟩ => ?_
    refine Watched.bind (R := fun _ => mayToken T l)
      (Watched.emit fun m hm => ⟨m, hm.2, hm⟩) fun _ => ?_
    split_ifs
    · exact Watched.ret fun _ hm => hm.1
    · exact Watched.bind (emit_closed_watched fun _ hm => hm.1) fun _ => KeepsToken.fail _ l
  refine hconnect.bind fun cert => ?_
  rcases hpin with hpin | hpin
  · rw [hpin]
    exact KeepsToken.ret _
  · cases h.pin with
    | none => exact KeepsToken.ret _
    | some fp =>
      simp only [hpin, Bool.false_and, Bool.false_eq_true, if_false]
      exact KeepsToken.fail _

/-! ## The operations -/

/-- The refused certificates are all of hosts for which an error is reported. -/
def coveredBy (reported : List Host) (m : WatchState C) : Prop :=
  ∀ x ∈ m.unaccepted, x ∈ reported

/-- A program that keeps to the monitor reports an error for its host when the certificate was
refused. -/
lemma reporting_watched {α : Type} {p : NetProg C α} (hp : KeepsToken T h p)
    (err : HostError → WatchState C → Prop) (l : List Host) :
    Watched (watchToken T) (coveredBy l) (reporting h p)
      (fun reported => coveredBy (l ++ reported)) err := by
  intro w m hm
  have hcov : ∀ x ∈ m.unaccepted, x ∈ l := hm
  suffices hwatched : Watched (watchToken T) (unchanged m.unaccepted) (reporting h p)
      (fun reported => coveredBy (l ++ reported)) err from hwatched w m rfl
  refine Watched.bind (Watched.attempt (hp m.unaccepted)) fun r => ?_
  cases r with
  | ok a =>
    refine Watched.ret fun m' hm' x hx => ?_
    rw [show m'.unaccepted = m.unaccepted from hm'] at hx
    simpa using hcov x hx
  | error e =>
    refine Watched.ret fun m' hm' x hx => ?_
    rcases hm' with hm' | hm' <;> rw [hm'] at hx
    · simp [hcov x hx]
    · rcases List.mem_cons.mp hx with rfl | hx
      · simp
      · simp [hcov x hx]

/-- A relayed WebSocket to a pinned host over TLS, with a peer that completes the connection:
the token is sent before its certificate is looked at. -/
def Operation.sendsFirst (op : Operation) (peers : List (Peer C)) : Prop :=
  match op, peers with
  | .relayWebsocket h, .up _ _ _ :: _ => isHttps h.url = true ∧ h.pin.isSome = true
  | _, _ => False

/-- An operation made of programs that keep to the monitor protects the token. -/
lemma protectsToken_of_watched {op : Operation} {peers : List (Peer C)}
    (hop : Watched (watchToken T) (coveredBy []) (op.run T)
      (fun reported => coveredBy reported) (fun _ _ => False)) :
    op.protectsToken T peers := by
  obtain ⟨w, hw, hend⟩ := hop peers ⟨.none, []⟩ (by simp [coveredBy])
  refine ⟨w, hw, ?_⟩
  cases hr : (op.run T peers).result with
  | ok reported =>
    rw [hr] at hend
    simpa [Ends, coveredBy] using hend
  | error e =>
    rw [hr] at hend
    exact hend

lemma checkAll_watched (T : Trust C) (hs : List Host) :
    Watched (watchToken T) (coveredBy []) ((Operation.checkAll hs).run T)
      (fun reported => coveredBy reported) (fun _ _ => False) := by
  refine Watched.bind (R := fun reports => coveredBy reports.flatten) ?_ fun reports =>
    Watched.ret fun _ hm => hm
  have hstep : ∀ (x : Host) (bs : List (List Host)),
      Watched (watchToken T) (coveredBy bs.flatten)
        (reporting x (getJson T x "system/health".toList))
        (fun b m => coveredBy (bs ++ [b]).flatten m) (fun _ _ => False) := by
    intro x bs
    refine (reporting_watched (getJson_keepsToken T x _) _ bs.flatten).mono (fun _ hm => hm)
      (fun b m hm => ?_) (fun _ _ hm => hm)
    simpa using hm
  simpa using Watched.forEach (I := fun bs => coveredBy bs.flatten) hstep []

/-- A relayed WebSocket to a pinned host puts the token right after the connection. -/
lemma relayWs_events {h : Host} (hurl : isHttps h.url = true) (hpin : h.pin.isSome = true)
    (cert : C) (answers : Text → Except Text Reply) (upgrades : Bool) (peers : List (Peer C)) :
    ∃ es, (relayWs T h (.up cert answers upgrades :: peers)).events
      = .presented h cert :: .token :: es := by
  have hopen : wsOpen T h (.up cert answers upgrades :: peers)
      = ⟨.ok (cert, upgrades), [.presented h cert], peers⟩ := by
    simp only [wsOpen, Prog.bind_apply, Prog.andThen, nextPeer, Prog.take, hurl, hpin,
      Bool.true_eq_false, if_false, if_true]
    rfl
  have hconnect : ∃ r es w, wsConnect T h (.up cert answers upgrades :: peers)
      = ⟨r, .presented h cert :: .token :: es, w⟩ := by
    simp only [wsConnect, Prog.bind_apply, Prog.andThen, hopen]
    exact ⟨_, _, _, rfl⟩
  obtain ⟨r, es, w, hconnect⟩ := hconnect
  rw [relayWs, Prog.bind_apply, Prog.andThen, hconnect]
  cases r with
  | ok c => exact ⟨_, rfl⟩
  | error e => exact ⟨_, rfl⟩

lemma not_protectsToken_of_sendsFirst {op : Operation} {peers : List (Peer C)}
    (hop : op.sendsFirst peers) : ¬op.protectsToken T peers := by
  rintro ⟨w, hw, -⟩
  cases op with
  | relayWebsocket h =>
    rcases peers with _ | ⟨_ | ⟨cert, answers, upgrades⟩, peers⟩
    · exact hop
    · exact hop
    · obtain ⟨es, hes⟩ := relayWs_events (T := T) hop.1 hop.2 cert answers upgrades peers
      have hevents : ∃ fs, ((Operation.relayWebsocket h).run T
          (.up cert answers upgrades :: peers)).events
            = .presented h cert :: .token :: (es ++ fs) := by
        simp only [Operation.run, reporting, Prog.bind_apply, Prog.andThen, Prog.attempt, hes]
        exact ⟨_, rfl⟩
      obtain ⟨fs, hfs⟩ := hevents
      rw [hfs] at hw
      simp [watch, watchToken] at hw
  | relay | probe | overview | checkAll => exact hop

/-- Without a connection a relayed WebSocket sends nothing and reports the error. -/
lemma protectsToken_of_down {h : Host} {peers : List (Peer C)}
    (hdown : ∀ cert answers upgrades ps, peers ≠ .up cert answers upgrades :: ps) :
    (Operation.relayWebsocket h).protectsToken T peers := by
  refine ⟨⟨.none, []⟩, ?_⟩
  rcases peers with _ | ⟨_ | ⟨cert, answers, upgrades⟩, peers⟩
  · exact ⟨rfl, fun x hx => absurd hx (by simp)⟩
  · exact ⟨rfl, fun x hx => absurd hx (by simp)⟩
  · exact absurd rfl (hdown _ _ _ _)

/-- **The token goes only over an accepted connection**, and an error is reported for every
host whose certificate was refused, exactly for the operations and peers that are not a
relayed WebSocket to a pinned host with a peer that completes the TLS connection. -/
theorem token_protected_iff (T : Trust C) (op : Operation) (peers : List (Peer C)) :
    op.protectsToken T peers ↔ ¬op.sendsFirst peers := by
  refine ⟨fun h hs => not_protectsToken_of_sendsFirst hs h, fun hop => ?_⟩
  have hsingle {α : Type} {h : Host} {p : NetProg C α} (hp : KeepsToken T h p) :
      Watched (watchToken T) (coveredBy []) (reporting h p)
        (fun reported => coveredBy reported) (fun _ _ => False) :=
    reporting_watched hp _ []
  cases op with
  | relay h target => exact protectsToken_of_watched (hsingle (call_keepsToken T h target))
  | probe h => exact protectsToken_of_watched (hsingle (probe_keepsToken T h))
  | overview h => exact protectsToken_of_watched (hsingle (fetchOverview_keepsToken T h))
  | checkAll hs => exact protectsToken_of_watched (checkAll_watched T hs)
  | relayWebsocket h =>
    by_cases hpin : h.pin = none ∨ isHttps h.url = false
    · exact protectsToken_of_watched (hsingle (relayWs_keepsToken T hpin))
    · refine protectsToken_of_down fun cert answers upgrades ps hps => hop ?_
      subst hps
      obtain ⟨hp, hu⟩ := not_or.mp hpin
      exact ⟨by simpa using hu, Option.isSome_iff_ne_none.mpr hp⟩

/-! ## A token sent to whoever answers -/

/-- A host pinned to its self-signed certificate. -/
def pinnedHost : Host :=
  { id := 2, name := "lab".toList, url := "https://lab:8443".toList, token := "hby_t".toList,
    fingerprint := some "AA:BB".toList, teamId := none }

/-- Certificates named by their fingerprints, none of them vouched for. -/
def byName : Trust Text := { fingerprint := fun c => c, verifies := fun _ _ => false }

/-- A relayed WebSocket to the pinned host sends the token to a peer with another certificate. -/
theorem relayWs_sends_token_unchecked :
    ¬∀ (op : Operation) (peers : List (Peer Text)), op.protectsToken byName peers := by
  intro h
  have hfirst : (Operation.relayWebsocket pinnedHost).sendsFirst
      [Peer.up "CC:DD".toList (fun _ => .error []) true] := ⟨by decide, by decide⟩
  exact not_protectsToken_of_sendsFirst hfirst (h _ _)

end Habeny.Hosts
