import Habeny.Lib.JsonValue
import Habeny.Lib.Text
import Mathlib.Logic.Function.Basic

/-!
# Alerts

An alert is active under a key, its name and its target.  Firing one that is active keeps the time
since when it is, and is announced again only when its severity changes; clearing one that is
active is announced.
-/

namespace Habeny.Alerts

open Habeny.Lib

inductive Severity where
  | warning
  | critical
  deriving DecidableEq

inductive Event where
  | firing
  | resolved
  deriving DecidableEq

/-- An alert is an object that may be changed in place, and `object` says which one. -/
structure Alert where
  object : ℕ
  name : Text
  severity : Severity
  message : Text
  target : Option Text
  since : Text
  details : JsonEntries

/-- What is announced: an event of an alert, with a link. -/
structure Note where
  event : Event
  alert : Alert
  link : Option Text

/-- The active alerts, by their keys. -/
abbrev Active := Text → Option Alert

/-! ## Texts -/

def labels : List (Text × Text) :=
  [("disk_low".toList, "Low disk space".toList),
    ("lxc_unavailable".toList, "LXC unavailable".toList),
    ("backup_failed".toList, "Backup failed".toList),
    ("deploy_failed".toList, "Deployment failed".toList),
    ("host_unreachable".toList, "Host unreachable".toList),
    ("license".toList, "License".toList)]

def label (name : Text) : Text := (labels.lookup name).getD name

/-- The key of a name and a target. -/
def keyOf (name : Text) : Option Text → Text
  | some (c :: target) => name ++ ':' :: c :: target
  | some [] | none => name

def Alert.key (a : Alert) : Text := keyOf a.name a.target

def clearedMessage (name : Text) : Option Text → Text
  | some (c :: message) => c :: message
  | some [] | none => label name ++ " cleared".toList

/-- A notification as it is sent. -/
structure Message where
  event : Text
  title : Text
  text : Text
  level : Text
  fields : JsonEntries
  link : Text

def titleOf (a : Alert) : Text :=
  label a.name ++ match a.target with
    | some (c :: target) => " (".toList ++ c :: target ++ ")".toList
    | some [] | none => []

def levelOf : Event → Severity → Text
  | .firing, .critical => "error".toList
  | .firing, .warning => "warning".toList
  | .resolved, _ => "success".toList

def isScalar : JsonValue → Bool
  | .dict _ | .list _ => false
  | _ => true

/-- `_notify` -/
def Note.message (n : Note) : Message where
  event := match n.event with
    | .firing => "alert.firing".toList
    | .resolved => "alert.resolved".toList
  title := match n.event with
    | .firing => titleOf n.alert
    | .resolved => "Resolved: ".toList ++ titleOf n.alert
  text := n.alert.message
  level := levelOf n.event n.alert.severity
  fields := n.alert.details.filter fun e => isScalar e.2
  link := match n.link with
    | some (c :: link) => c :: link
    | some [] | none => "/monitoring".toList

/-! ## Firing and clearing -/

/-- The alert as it becomes active: an episode that goes on keeps its time. -/
def continued (active : Active) (a : Alert) : Alert :=
  match active a.key with
  | some previous => { a with since := previous.since }
  | none => a

/-- The locked part of `fire`, and what it is to announce. -/
def fire (active : Active) (a : Alert) (link : Option Text) : Active × Option Note :=
  let alert := continued active a
  (Function.update active a.key (some alert),
    match active a.key with
    | some previous => if previous.severity = a.severity then none else some ⟨.firing, alert, link⟩
    | none => some ⟨.firing, alert, link⟩)

/-- The locked part of `clear`, and the alert that is no longer active. -/
def clear (active : Active) (name : Text) (target : Option Text) : Active × Option Alert :=
  (Function.update active (keyOf name target) none, active (keyOf name target))

@[simp] lemma continued_key (active : Active) (a : Alert) : (continued active a).key = a.key := by
  rw [continued]
  split <;> rfl

@[simp] lemma fire_active (active : Active) (a : Alert) (link : Option Text) :
    (fire active a link).1 = Function.update active a.key (some (continued active a)) := rfl

@[simp] lemma clear_active (active : Active) (name : Text) (target : Option Text) :
    (clear active name target).1 = Function.update active (keyOf name target) none := rfl

end Habeny.Alerts
