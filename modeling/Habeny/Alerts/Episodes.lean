import Habeny.Alerts.Manager
import Habeny.Lib.Outbox
import Habeny.Lib.Transition
import Mathlib.Data.List.InsertIdx

/-!
# Episodes of an alert

A call changes the active alerts under the lock, and sends its notification after it has released
it; in between other calls may do both.  In the order of the changes the notifications of a key
form episodes, and the last one is open exactly while the alert is active (`Sound`).  They are sent
in that order where none of them overtakes another one of the same key.
-/

namespace Habeny.Alerts

open Habeny.Lib

/-! ## Calls of several threads -/

/-- A call that has left the lock and is still to send its notification; one that clears an alert
has to set the message before. -/
structure Call where
  note : Note
  newMessage : Option Text

/-- The active alerts, the calls in the order in which they held the lock, what was sent, and how
many alerts were made. -/
structure System where
  active : Active
  calls : List Call
  sent : List Note
  objects : ℕ

inductive Action where
  | fire (name : Text) (severity : Severity) (message : Text) (target : Option Text) (since : Text)
      (details : JsonEntries) (link : Option Text)
  | clear (name : Text) (target : Option Text) (message : Option Text)
  /-- A call that clears sets the message of its alert. -/
  | setMessage (i : ℕ)
  | send (i : ℕ)

/-- Set the message of an alert, wherever the object is seen. -/
def Note.withMessage (object : ℕ) (message : Text) (n : Note) : Note :=
  if n.alert.object = object then { n with alert := { n.alert with message } } else n

def Call.withMessage (object : ℕ) (message : Text) (c : Call) : Call :=
  { c with note := c.note.withMessage object message }

namespace System

def start : System := { active := fun _ => none, calls := [], sent := [], objects := 0 }

def step (s : System) : Action → Option System
  | .fire name severity message target since details link =>
    let made := { object := s.objects, name, severity, message, target, since, details }
    let (active, note) := Alerts.fire s.active made link
    some { s with
      active
      calls := s.calls ++ note.toList.map fun n => ⟨n, none⟩
      objects := s.objects + 1 }
  | .clear name target message =>
    let (active, alert) := Alerts.clear s.active name target
    some { s with
      active
      calls := s.calls ++ alert.toList.map fun a => ⟨⟨.resolved, a, none⟩, some (clearedMessage name message)⟩ }
  | .setMessage i =>
    match s.calls[i]? with
    | some ⟨note, some message⟩ =>
      some { s with
        calls := (s.calls.map (Call.withMessage note.alert.object message)).modify i
          fun c => { c with newMessage := none } }
    | _ => none
  | .send i =>
    match s.calls[i]? with
    | some ⟨note, none⟩ => some { s with calls := s.calls.eraseIdx i, sent := s.sent ++ [note] }
    | _ => none

end System

/-! ## Episodes -/

/-- The episode that is open: its severity, and since when. -/
abbrev Phase := Option (Severity × Text)

/-- What a notification may be: a firing that opens an episode; another firing of the episode,
with a new severity and the same time; or the end of the episode. -/
def Phase.advance : Phase → Note → Option Phase
  | none, ⟨.firing, a, _⟩ => some (some (a.severity, a.since))
  | some (severity, since), ⟨.firing, a, _⟩ =>
    if a.severity ≠ severity ∧ a.since = since then some (some (a.severity, since)) else none
  | some (_, since), ⟨.resolved, a, _⟩ => if a.since = since then some none else none
  | none, ⟨.resolved, _, _⟩ => none

/-- The phase after some notifications, if they form episodes. -/
def phaseAfter (notes : List Note) : Option Phase := notes.foldlM Phase.advance none

def Episodes (notes : List Note) : Prop := (phaseAfter notes).isSome = true

instance (notes : List Note) : Decidable (Episodes notes) :=
  inferInstanceAs (Decidable (_ = true))

def Note.key (n : Note) : Text := n.alert.key

/-- The last notification is a firing. -/
def EndsFiring (notes : List Note) : Prop := (notes.getLast?.map Note.event) = some .firing

instance (notes : List Note) : Decidable (EndsFiring notes) :=
  inferInstanceAs (Decidable (_ = _))

lemma phaseAfter_concat (notes : List Note) (n : Note) :
    phaseAfter (notes ++ [n]) = (phaseAfter notes).bind fun p => p.advance n := by
  rw [phaseAfter, List.foldlM_append, phaseAfter]
  refine congrArg _ (funext fun p => ?_)
  exact bind_pure _

lemma phaseAfter_of_append {notes rest : List Note} (h : Episodes (notes ++ rest)) : Episodes notes := by
  rw [Episodes, phaseAfter, List.foldlM_append] at h
  rw [Episodes, phaseAfter]
  cases hfirst : notes.foldlM Phase.advance none with
  | none =>
    rw [hfirst] at h
    exact h
  | some p => rfl

/-- An episode is open exactly after a firing. -/
lemma endsFiring_iff {notes : List Note} {p : Phase} (h : phaseAfter notes = some p) :
    EndsFiring notes ↔ p.isSome = true := by
  rcases List.eq_nil_or_concat notes with rfl | ⟨init, n, rfl⟩
  · obtain rfl := Option.some.inj h
    simp [EndsFiring]
  · rw [List.concat_eq_append] at h ⊢
    rw [phaseAfter_concat] at h
    obtain ⟨q, -, hadvance⟩ := Option.bind_eq_some_iff.mp h
    obtain ⟨event, a, link⟩ := n
    rw [EndsFiring, List.getLast?_concat, Option.map_some, Option.some.injEq]
    rcases q with _ | ⟨severity, since⟩ <;> cases event
    · obtain rfl := Option.some.inj hadvance
      simp
    · cases hadvance
    · simp only [Phase.advance] at hadvance
      split_ifs at hadvance
      obtain rfl := Option.some.inj hadvance
      simp
    · simp only [Phase.advance] at hadvance
      split_ifs at hadvance
      obtain rfl := Option.some.inj hadvance
      simp

/-! ## What a step keeps -/

/-- No notification overtakes one of the same key. -/
def InOrder (s : System) : Action → Prop
  | .send i => InTurn Note.key (s.calls.map Call.note) i
  | _ => True

def Alert.phase (a : Alert) : Severity × Text := (a.severity, a.since)

/-- The notifications of a key, in the order of the changes. -/
def System.history (s : System) (k : Text) : List Note :=
  historyOf Note.key k s.sent (s.calls.map Call.note)

/-- The history of every key forms episodes, and the last one is open while the alert is active. -/
structure Sound (s : System) : Prop where
  history : ∀ k, phaseAfter (s.history k) = some ((s.active k).map Alert.phase)
  keyed : ∀ k a, s.active k = some a → a.key = k

lemma sound_start : Sound System.start where
  history := fun _ => rfl
  keyed := fun _ _ h => by cases h

/-- A call that changes the alert of one key, and leaves a notification of that key or none. -/
lemma Sound.change {s : System} (h : Sound s) {k : Text} {alert : Option Alert} {calls : List Call}
    {objects : ℕ} (hkeyed : ∀ a, alert = some a → a.key = k)
    (hcalls : ∀ c ∈ calls, c.note.key = k)
    (hphase : calls.foldlM (fun p c => Phase.advance p c.note) ((s.active k).map Alert.phase) =
      some (alert.map Alert.phase)) :
    Sound { s with
      active := Function.update s.active k alert
      calls := s.calls ++ calls
      objects } where
  history := by
    intro k'
    have hsplit : historyOf Note.key k' s.sent ((s.calls ++ calls).map Call.note) =
        s.history k' ++ ofKey Note.key k' (calls.map Call.note) := by
      rw [historyOf, System.history, historyOf, List.map_append, ofKey_append, List.append_assoc]
    change phaseAfter (historyOf Note.key k' s.sent ((s.calls ++ calls).map Call.note)) =
      some ((Function.update s.active k alert k').map Alert.phase)
    rw [hsplit, phaseAfter, List.foldlM_append]
    have hbefore := h.history k'
    rw [phaseAfter] at hbefore
    rw [hbefore]
    by_cases hk : k' = k
    · have hall : ofKey Note.key k' (calls.map Call.note) = calls.map Call.note := by
        refine List.filter_eq_self.mpr fun n hn => ?_
        obtain ⟨c, hc, rfl⟩ := List.mem_map.mp hn
        simpa [hk] using hcalls c hc
      rw [hall, hk, Function.update_self, ← hphase]
      exact List.foldlM_map ..
    · have hnone : ofKey Note.key k' (calls.map Call.note) = [] := by
        refine List.filter_eq_nil_iff.mpr fun n hn => ?_
        obtain ⟨c, hc, rfl⟩ := List.mem_map.mp hn
        simpa [hcalls c hc] using fun h => hk h.symm
      rw [hnone, Function.update_of_ne hk]
      rfl
  keyed := by
    intro k' a ha
    change Function.update s.active k alert k' = some a at ha
    by_cases hk : k' = k
    · rw [hk, Function.update_self] at ha
      rw [hk]
      exact hkeyed a ha
    · rw [Function.update_of_ne hk] at ha
      exact h.keyed k' a ha

/-- What `fire` announces is about the alert as it becomes active. -/
lemma fire_note {active : Active} {a : Alert} {link : Option Text} {n : Note}
    (h : (fire active a link).2 = some n) : n = ⟨.firing, continued active a, link⟩ := by
  rw [fire] at h
  cases hprevious : active a.key with
  | none =>
    rw [hprevious] at h
    exact (Option.some.inj h).symm
  | some previous =>
    rw [hprevious] at h
    simp only at h
    split_ifs at h
    exact (Option.some.inj h).symm

/-- Firing goes on with the episode, or opens one. -/
lemma advance_fire (active : Active) (a : Alert) (link : Option Text) :
    (fire active a link).2.toList.foldlM Phase.advance ((active a.key).map Alert.phase) =
      some (some (continued active a).phase) := by
  rw [fire, continued]
  cases hprevious : active a.key with
  | none => rfl
  | some previous =>
    simp only
    split_ifs with hseverity
    · rw [Option.toList_none, List.foldlM_nil, Option.map_some, Alert.phase, Alert.phase, hseverity]
      rfl
    · have hnew : a.severity ≠ previous.severity := fun h => hseverity h.symm
      rw [Option.toList_some, List.foldlM_cons]
      simp only [Option.map_some, Alert.phase, Phase.advance, hnew, ne_eq, not_false_eq_true,
        and_self, if_true]
      rfl

lemma Sound.fire {s s' : System} (h : Sound s) {name message since : Text} {severity : Severity}
    {target link : Option Text} {details : JsonEntries}
    (hstep : s.step (.fire name severity message target since details link) = some s') :
    Sound s' := by
  obtain rfl := Option.some.inj hstep
  let made : Alert := { object := s.objects, name, severity, message, target, since, details }
  refine h.change (k := made.key) (fun a ha => ?_) (fun c hc => ?_) ?_
  · rw [← Option.some.inj ha]
    exact continued_key ..
  · obtain ⟨n, hn, rfl⟩ := List.mem_map.mp hc
    rw [fire_note (Option.mem_toList.mp hn)]
    exact continued_key ..
  · rw [List.foldlM_map]
    exact advance_fire s.active made link

/-- The end of an episode ends it. -/
lemma advance_clear (alert : Option Alert) :
    (alert.toList.foldlM (fun p a => Phase.advance p ⟨.resolved, a, none⟩)
      (alert.map Alert.phase)) = some none := by
  cases alert with
  | none => rfl
  | some a =>
    rw [Option.toList_some, List.foldlM_cons]
    simp only [Option.map_some, Alert.phase, Phase.advance, if_true]
    rfl

lemma Sound.clear {s s' : System} (h : Sound s) {name : Text} {target message : Option Text}
    (hstep : s.step (.clear name target message) = some s') : Sound s' := by
  obtain rfl := Option.some.inj hstep
  refine h.change (k := keyOf name target) (fun a ha => by cases ha) (fun c hc => ?_) ?_
  · obtain ⟨a, ha, rfl⟩ := List.mem_map.mp hc
    exact h.keyed _ a (Option.mem_toList.mp ha)
  · rw [List.foldlM_map]
    exact advance_clear (s.active (keyOf name target))

lemma advance_withMessage (p : Phase) (object : ℕ) (message : Text) (n : Note) :
    p.advance (n.withMessage object message) = p.advance n := by
  obtain ⟨event, a, link⟩ := n
  rw [Note.withMessage]
  split_ifs <;> rcases p with _ | ⟨severity, since⟩ <;> cases event <;> rfl

lemma key_withMessage (object : ℕ) (message : Text) (n : Note) :
    (n.withMessage object message).key = n.key := by
  rw [Note.withMessage]
  split_ifs <;> rfl

/-- The message that is still to be set is not part of a notification. -/
lemma map_note_modify (calls : List Call) (i : ℕ) :
    (calls.modify i fun c => { c with newMessage := none }).map Call.note =
      calls.map Call.note := by
  refine List.ext_getElem? fun j => ?_
  rw [List.getElem?_map, List.getElem?_map, List.getElem?_modify]
  cases calls[j]? with
  | none => simp
  | some c => by_cases hj : i = j <;> simp [hj]

lemma Sound.setMessage {s s' : System} (h : Sound s) {i : ℕ}
    (hstep : s.step (.setMessage i) = some s') : Sound s' := by
  rw [System.step] at hstep
  split at hstep
  · next note message _ =>
    obtain rfl := Option.some.inj hstep
    refine ⟨fun k => ?_, h.keyed⟩
    have hcalls : ((s.calls.map (Call.withMessage note.alert.object message)).modify i
        fun c => { c with newMessage := none }).map Call.note =
        (s.calls.map Call.note).map (Note.withMessage note.alert.object message) := by
      rw [map_note_modify, List.map_map, List.map_map]
      rfl
    rw [← h.history k, System.history, hcalls, System.history, historyOf, historyOf,
      ofKey_map _ (key_withMessage note.alert.object message), phaseAfter, phaseAfter,
      List.foldlM_append, List.foldlM_append]
    refine congrArg _ (funext fun p => ?_)
    rw [List.foldlM_map]
    simp only [advance_withMessage]
  · cases hstep

lemma Sound.send {s s' : System} (h : Sound s) {i : ℕ} (hturn : InOrder s (.send i))
    (hstep : s.step (.send i) = some s') : Sound s' := by
  rw [System.step] at hstep
  split at hstep
  · next note hi =>
    obtain rfl := Option.some.inj hstep
    have hnote : (s.calls.map Call.note)[i]? = some note := by rw [List.getElem?_map, hi]; rfl
    refine ⟨fun k => ?_, h.keyed⟩
    rw [← h.history k, System.history, ← List.eraseIdx_map]
    exact congrArg _ (historyOf_send hnote hturn k)
  · cases hstep

lemma step_sound {s s' : System} {a : Action} (h : Sound s) (hguard : InOrder s a)
    (hstep : s.step a = some s') : Sound s' := by
  cases a with
  | fire name severity message target since details link => exact h.fire hstep
  | clear name target message => exact h.clear hstep
  | setMessage i => exact h.setMessage hstep
  | send i => exact h.send hguard hstep

/-! ## Runs -/

/-- What is sent of a key forms episodes; and when all calls have returned, its last notification
is a firing exactly if the alert is active. -/
def Announced (s : System) (k : Text) : Prop :=
  Episodes (ofKey Note.key k s.sent) ∧
    (s.calls = [] → (EndsFiring (ofKey Note.key k s.sent) ↔ (s.active k).isSome = true))

lemma Sound.announced {s : System} (h : Sound s) (k : Text) : Announced s k := by
  have hhistory := h.history k
  have hepisodes : Episodes (s.history k) := by rw [Episodes, hhistory, Option.isSome_some]
  refine ⟨phaseAfter_of_append hepisodes, fun hreturned => ?_⟩
  rw [System.history, historyOf, hreturned, List.map_nil, ofKey_nil, List.append_nil] at hhistory
  rw [endsFiring_iff hhistory, Option.isSome_map]

/-- **Alerts are announced in episodes**, whatever the interleaving of the calls is, as long as no
notification overtakes another one of its key. -/
theorem announced_in_order {s : System} {as : List Action}
    (hrun : Run System.step InOrder .start as s) (k : Text) : Announced s k :=
  Sound.announced (hrun.invariant (fun h hguard hstep => step_sound h hguard hstep) sound_start) k

/-- A disk fills up and is cleared while the first notification waits. -/
def diskFills : List Action :=
  [.fire "disk_low".toList .warning "Only 4.0% free".toList (some "data".toList)
      "2026-01-01T00:00:00+00:00".toList [] none,
    .clear "disk_low".toList (some "data".toList) none, .setMessage 1]

/-- The first call that waits is always in its turn. -/
lemma inOrder_send_zero (s : System) : InOrder s (.send 0) := fun _ _ _ hb =>
  absurd hb (by simp)

/-- Both are sent in the order of the changes. -/
theorem announced_in_order_disk :
    ∃ s, Run System.step InOrder .start (diskFills ++ [.send 0, .send 0]) s ∧ s.sent.length = 2 ∧
      Announced s "disk_low:data".toList := by
  have hrun : Run System.step InOrder .start (diskFills ++ [.send 0, .send 0]) _ :=
    .cons trivial rfl <| .cons trivial rfl <| .cons trivial rfl <|
      .cons (inOrder_send_zero _) rfl <| .cons (inOrder_send_zero _) rfl <| .nil _
  exact ⟨_, hrun, rfl, announced_in_order hrun _⟩

/-- The end of the episode is sent first, and then its beginning. -/
theorem overtaken : ∃ s, Run System.step anyStep .start (diskFills ++ [.send 1, .send 0]) s ∧
    s.calls = [] ∧ ¬Announced s "disk_low:data".toList ∧
    EndsFiring (ofKey Note.key "disk_low:data".toList s.sent) ∧
    (s.active "disk_low:data".toList).isSome = false := by
  have hrun : Run System.step anyStep .start (diskFills ++ [.send 1, .send 0]) _ :=
    run_of_exec rfl
  exact ⟨_, hrun, rfl, fun h => absurd h.1 (by decide), by decide, by decide⟩

end Habeny.Alerts
