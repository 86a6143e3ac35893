import Habeny.Lib.Decimal
import Mathlib.Algebra.BigOperators.Group.Finset.Basic
import Mathlib.Algebra.GroupWithZero.Nat

/-!
# Syslog simulations

A syslog simulation sends the messages of many made-up devices to a syslog server, so many in each
second, until its duration is over or its record says that it is no longer running.

In every second that is simulated exactly as many messages are handed to the sender as were asked
for, and as evenly as possible from each device (`handed_simulated`).  The devices have different
names and different addresses, since their numbers, up to a thousand, differ modulo 254 or modulo
250 (`address_injOn`).  The names begin with the prefix of the request, whatever it is.
-/

namespace Habeny.Simulations

open Habeny.Lib Habeny.Lib.CodeText

/-! ## Requests and devices -/

inductive SyslogDeviceType where
  | router
  | switch
  | firewall
  | ids
  | mixed
  deriving DecidableEq

/-- A request that is accepted: what sets the rate and the devices. -/
structure SyslogSimulationRequest where
  eps : ℕ
  duration : ℕ
  deviceCount : ℕ
  deviceType : SyslogDeviceType
  deviceNamePrefix : CodeText
  facility : ℕ
  eps_bounds : 1 ≤ eps ∧ eps ≤ 10000
  duration_bounds : 1 ≤ duration ∧ duration ≤ 86400
  deviceCount_bounds : 1 ≤ deviceCount ∧ deviceCount ≤ 1000
  namePrefix_le : deviceNamePrefix.length ≤ 50
  facility_le : facility ≤ 23

structure Device where
  name : CodeText
  ip : CodeText
  type : SyslogDeviceType
  deriving DecidableEq

namespace SyslogSimulationRequest

variable (r : SyslogSimulationRequest)

def deviceTypes : List SyslogDeviceType :=
  if r.deviceType = .mixed then [.router, .switch, .firewall, .ids] else [r.deviceType]

def deviceName (idx : ℕ) : CodeText := r.deviceNamePrefix ++ lit "-" ++ decimal2 (idx + 1)

/-- The last two numbers of a device's address. -/
def thirdOctet (idx : ℕ) : ℕ := idx % 254 + 1

def fourthOctet (idx : ℕ) : ℕ := idx % 250 + 1

def deviceIp (idx : ℕ) : CodeText :=
  lit "10.0." ++ decimal (thirdOctet idx) ++ lit "." ++ decimal (fourthOctet idx)

def device (idx : ℕ) : Device where
  name := r.deviceName idx
  ip := deviceIp idx
  type := r.deviceTypes.getD (idx % r.deviceTypes.length) .router

def devices : List Device := (List.range r.deviceCount).map r.device

/-- How many messages a device has in each second. -/
def share (index : ℕ) : ℕ :=
  r.eps / r.deviceCount + if index < r.eps % r.deviceCount then 1 else 0

end SyslogSimulationRequest

/-! ## Messages -/

/-- `random.randint` -/
abbrev RandInt (a b : ℕ) := {n : ℕ // a ≤ n ∧ n ≤ b}

/-- What is drawn for a message, and the time it is given. -/
structure Draw where
  timestamp : CodeText
  severity : RandInt 0 7
  template : ℕ
  iface : RandInt 1 24
  ifaceAlt : RandInt 1 24
  peerIp : Fin 4 → RandInt 1 254
  srcIp : Fin 4 → RandInt 10 250
  dstIp : Fin 4 → RandInt 1 254
  srcPort : RandInt 1024 65535
  dstPort : RandInt 1024 65535
  conn : RandInt 1000 9999
  min : RandInt 0 59
  sec : RandInt 0 59
  bytes : RandInt 100 99999
  vlan : RandInt 1 100
  mac : Fin 6 → RandInt 0 255
  sig : RandInt 1000 9999

/-- The fields of a template. -/
inductive Field where
  | iface | ifaceAlt | deviceIp | peerIp | srcIp | dstIp | srcPort | dstPort | conn | min | sec
  | bytes | vlan | mac | sig | timestamp

/-- A part of a template. -/
inductive Piece where
  | text (t : CodeText)
  | field (f : Field)

def address {a b : ℕ} (octets : Fin 4 → RandInt a b) : CodeText :=
  (lit ".").intercalate ((List.ofFn octets).map fun n => decimal n.val)

/-- The format `02x` -/
def hex2 (n : ℕ) : CodeText :=
  [Char.toNat (Nat.digitChar (n / 16)), Char.toNat (Nat.digitChar (n % 16))]

def Field.value (deviceIp : CodeText) (d : Draw) : Field → CodeText
  | .iface => decimal d.iface.val
  | .ifaceAlt => decimal d.ifaceAlt.val
  | .deviceIp => deviceIp
  | .peerIp => address d.peerIp
  | .srcIp => address d.srcIp
  | .dstIp => address d.dstIp
  | .srcPort => decimal d.srcPort.val
  | .dstPort => decimal d.dstPort.val
  | .conn => decimal d.conn.val
  | .min => decimal d.min.val
  | .sec => decimal d.sec.val
  | .bytes => decimal d.bytes.val
  | .vlan => decimal d.vlan.val
  | .mac => (lit ":").intercalate ((List.ofFn d.mac).map fun n => hex2 n.val)
  | .sig => decimal d.sig.val
  | .timestamp => d.timestamp

/-- `SYSLOG_TEMPLATES` -/
def syslogTemplates : SyslogDeviceType → List (List Piece)
  | .router | .mixed =>
    [[.text (lit "%LINK-5-CHANGED: Interface GigabitEthernet0/"), .field .iface,
        .text (lit " changed state to administratively down")],
      [.text (lit "%LINEPROTO-5-UPDOWN: Line protocol on Interface GigabitEthernet0/"),
        .field .iface, .text (lit ", changed state to down")],
      [.text (lit "%SYS-5-CONFIG_I: Configured from console by admin on vty0 ("),
        .field .deviceIp, .text (lit ")")],
      [.text (lit "%OSPF-5-ADJCHG: Process 1, Nbr "), .field .peerIp,
        .text (lit " on GigabitEthernet0/"), .field .iface,
        .text (lit " from FULL to DOWN, Neighbor Down: Dead timer expired")],
      [.text (lit "%SEC_LOGIN-5-LOGIN_SUCCESS: Login successful [user: admin] [Source: "),
        .field .srcIp, .text (lit "] [localport: 22] at "), .field .timestamp]]
  | .switch =>
    [[.text (lit "%LINK-3-UPDOWN: Interface FastEthernet0/"), .field .iface,
        .text (lit ", changed state to up")],
      [.text (lit "%SPANTREE-6-PORTBLK: Port Fa0/"), .field .iface,
        .text (lit " blocked by spanning tree.")],
      [.text (lit "%MACFLAP_NOTIF: Host "), .field .mac, .text (lit " in vlan "), .field .vlan,
        .text (lit " is flapping between port Fa0/"), .field .iface,
        .text (lit " and port Fa0/"), .field .ifaceAlt],
      [.text (lit "%DHCP_SNOOPING-5-DHCP_SNOOPING_NONZERO_GIADDR: "),
        .text (lit "DHCP_SNOOPING drop message with non-zero giaddr from interface Fa0/"),
        .field .iface],
      [.text (lit "%AUTHPRIV-6-SYSTEM_MSG: AAA authorization succeeded for user admin - shell")]]
  | .firewall =>
    [[.text (lit "%ASA-6-302013: Built inbound TCP connection "), .field .conn,
        .text (lit " for inside:"), .field .srcIp, .text (lit "/"), .field .srcPort,
        .text (lit " ("), .field .srcIp, .text (lit "/"), .field .srcPort,
        .text (lit ") to outside:"), .field .dstIp, .text (lit "/80")],
      [.text (lit "%ASA-6-302014: Teardown TCP connection "), .field .conn,
        .text (lit " for inside:"), .field .srcIp, .text (lit "/"), .field .srcPort,
        .text (lit " to outside:"), .field .dstIp, .text (lit "/80 duration 0:"), .field .min,
        .text (lit ":"), .field .sec, .text (lit " bytes "), .field .bytes],
      [.text (lit "%ASA-4-106023: Deny tcp src outside:"), .field .dstIp, .text (lit "/"),
        .field .dstPort, .text (lit " dst inside:"), .field .srcIp,
        .text (lit "/22 by access-group \"OUTSIDE_IN\" [0x0, 0x0]")],
      [.text (lit "%ASA-5-111008: User 'admin' executed the 'enable' command.")],
      [.text (lit "%ASA-6-305011: Built dynamic UDP translation from inside:"), .field .srcIp,
        .text (lit "/"), .field .srcPort, .text (lit " to outside:"), .field .dstIp,
        .text (lit "/"), .field .dstPort]]
  | .ids =>
    [[.text (lit "%ET NETBIOS DCERPC ISystemActivator SMB named pipe access attempt "),
        .field .sig],
      [.text (lit "%ET TROJAN Possible Metasploit Payload common.ports.dstport "), .field .sig],
      [.text (lit "%GPL ATTACK_RESPONSE id check returned root "), .field .sig],
      [.text (lit "%ET SCAN Potential SSH Scan "), .field .sig],
      [.text (lit "%ET WEB_CLIENT Microsoft Internet Explorer invalid MIME type attempt "),
        .field .sig]]

/-- One of the templates; the number drawn is below how many there are. -/
def selectSyslogTemplate (type : SyslogDeviceType) (d : Draw) : List Piece :=
  (syslogTemplates type).getD (d.template % (syslogTemplates type).length) []

def Piece.value (deviceIp : CodeText) (d : Draw) : Piece → CodeText
  | .text t => t
  | .field f => f.value deviceIp d

def buildSyslogMessage (device : Device) (facility : ℕ) (d : Draw) : CodeText :=
  let pri := lit "<" ++ decimal (facility * 8 + d.severity.val) ++ lit ">"
  let payload := (selectSyslogTemplate device.type d).flatMap (Piece.value device.ip d)
  pri ++ d.timestamp ++ lit " " ++ device.name ++ lit ": " ++ payload

/-! ## Simulating -/

/-- A message that was handed to the sender: in which second, of which device. -/
structure Handed where
  second : ℕ
  index : ℕ
  message : CodeText

structure Totals where
  sent : ℕ
  failed : ℕ
  /-- what was handed to the sender so far -/
  handed : List Handed
  /-- how many seconds were simulated -/
  seconds : ℕ

/-- What the simulation does not decide: what is drawn, which messages can be sent, and at which
seconds its record still says that it is running. -/
structure Surroundings where
  draw : List Handed → Draw
  sends : List Handed → CodeText → Bool
  running : List Handed → ℕ → Bool

variable (r : SyslogSimulationRequest) (w : Surroundings)

/-- Hand one message of a device to the sender. -/
def handOver (second index : ℕ) (device : Device) (t : Totals) : Totals :=
  let message := buildSyslogMessage device r.facility (w.draw t.handed)
  let handed := t.handed ++ [⟨second, index, message⟩]
  if w.sends t.handed message then { t with sent := t.sent + 1, handed := handed }
  else { t with failed := t.failed + 1, handed := handed }

/-- The messages of one device in a second. -/
def deviceTurn (second : ℕ) (t : Totals) (d : Device × ℕ) : Totals :=
  (handOver r w second d.2 d.1)^[r.share d.2] t

def simulateSecond (second : ℕ) (t : Totals) : Totals :=
  let t := r.devices.zipIdx.foldl (deviceTurn r w second) t
  { t with seconds := t.seconds + 1 }

/-- The seconds that are left, from one on. -/
def simulateFrom : ℕ → ℕ → Totals → Totals
  | 0, _, t => t
  | left + 1, second, t =>
    if w.running t.handed second then simulateFrom left (second + 1) (simulateSecond r w second t)
    else t

/-- `run_syslog_simulation` -/
def runSyslogSimulation : Totals := simulateFrom r w r.duration 0 ⟨0, 0, [], 0⟩

/-! ## The devices -/

/-- Numbers below a thousand that agree modulo 254 and modulo 250 are equal. -/
lemma octets_injOn {i j : ℕ} (hi : i < 1000) (hj : j < 1000)
    (hthird : SyslogSimulationRequest.thirdOctet i = SyslogSimulationRequest.thirdOctet j)
    (hfourth : SyslogSimulationRequest.fourthOctet i = SyslogSimulationRequest.fourthOctet j) :
    i = j := by
  unfold SyslogSimulationRequest.thirdOctet at hthird
  unfold SyslogSimulationRequest.fourthOctet at hfourth
  omega

/-- The octets of an address can be told from its text. -/
lemma octets_of_deviceIp {i j : ℕ}
    (h : SyslogSimulationRequest.deviceIp i = SyslogSimulationRequest.deviceIp j) :
    SyslogSimulationRequest.thirdOctet i = SyslogSimulationRequest.thirdOctet j ∧
      SyslogSimulationRequest.fourthOctet i = SyslogSimulationRequest.fourthOctet j := by
  have hpoint : ∀ n : ℕ, 46 ∉ decimal n := fun n hmem => by
    have := mem_decimal hmem
    omega
  have hrest : decimal (SyslogSimulationRequest.thirdOctet i) ++
      46 :: decimal (SyslogSimulationRequest.fourthOctet i) =
        decimal (SyslogSimulationRequest.thirdOctet j) ++
          46 :: decimal (SyslogSimulationRequest.fourthOctet j) := by
    simpa [SyslogSimulationRequest.deviceIp, show lit "." = [46] by decide] using h
  obtain ⟨hthird, -, hfourth⟩ :=
    (List.append_cons_inj_of_notMem (hpoint _) (hpoint _)).mp hrest
  exact ⟨decimal_injective hthird, decimal_injective hfourth⟩

lemma deviceName_injective : Function.Injective r.deviceName := by
  intro i j h
  have hdigits := decimal2_injective (List.append_cancel_left h)
  omega

/-- The names of the devices are different. -/
lemma nodup_names : (r.devices.map Device.name).Nodup := by
  rw [SyslogSimulationRequest.devices, List.map_map]
  exact List.nodup_range.map (deviceName_injective r)

/-- The addresses of the devices are different. -/
lemma nodup_addresses : (r.devices.map Device.ip).Nodup := by
  rw [SyslogSimulationRequest.devices, List.map_map]
  refine List.Nodup.map_on (fun i hi j hj h => ?_) List.nodup_range
  have hcount := r.deviceCount_bounds.2
  rw [List.mem_range] at hi hj
  obtain ⟨hthird, hfourth⟩ := octets_of_deviceIp h
  exact octets_injOn (by omega) (by omega) hthird hfourth

/-- A name that can stand in a message: printable characters of ASCII, at most 255. -/
def ValidName (name : CodeText) : Prop :=
  name ≠ [] ∧ name.length ≤ 255 ∧ ∀ c ∈ name, 33 ≤ c ∧ c ≤ 126

/-- An address: four numbers up to 255 between points. -/
def ValidAddress (ip : CodeText) : Prop :=
  ∃ a b c d : RandInt 0 255,
    ip = (lit ".").intercalate [decimal a.val, decimal b.val, decimal c.val, decimal d.val]

lemma length_decimal2_le {n : ℕ} (hn : n < 10000) : (decimal2 n).length ≤ 4 := by
  have hlength : ∀ k, 0 < k → n < 10 ^ k → (decimal n).length ≤ k := by
    intro k hk hlt
    rw [decimal, List.length_map]
    exact (Nat.length_toDigits_le_iff (by omega) hk).mpr hlt
  rw [decimal2]
  split_ifs with hsmall
  · have := hlength 1 (by omega) (by omega)
    rw [List.length_cons]
    omega
  · exact hlength 4 (by omega) (by omega)

/-- **A device's name is valid exactly if the prefix has valid characters.** -/
lemma validName_iff (idx : ℕ) (hidx : idx < r.deviceCount) :
    ValidName (r.deviceName idx) ↔ ∀ c ∈ r.deviceNamePrefix, 33 ≤ c ∧ c ≤ 126 := by
  have hcount := r.deviceCount_bounds.2
  have hname := r.namePrefix_le
  have hdigits := length_decimal2_le (show idx + 1 < 10000 by omega)
  constructor
  · exact fun h c hc => h.2.2 c (List.mem_append_left _ (List.mem_append_left _ hc))
  · intro h
    refine ⟨by simp [SyslogSimulationRequest.deviceName, show lit "-" = [45] by decide], ?_, ?_⟩
    · rw [SyslogSimulationRequest.deviceName, List.length_append, List.length_append,
        show (lit "-").length = 1 by decide]
      omega
    · intro c hc
      rw [SyslogSimulationRequest.deviceName, List.mem_append, List.mem_append] at hc
      obtain (hc | hc) | hc := hc
      · exact h c hc
      · obtain rfl : c = 45 := by simpa [show lit "-" = [45] by decide] using hc
        omega
      · have := mem_decimal2 hc
        omega

lemma validAddress_deviceIp (idx : ℕ) : ValidAddress (SyslogSimulationRequest.deviceIp idx) := by
  have hthird : SyslogSimulationRequest.thirdOctet idx ≤ 255 := by
    unfold SyslogSimulationRequest.thirdOctet
    omega
  have hfourth : SyslogSimulationRequest.fourthOctet idx ≤ 255 := by
    unfold SyslogSimulationRequest.fourthOctet
    omega
  refine ⟨⟨10, by omega⟩, ⟨0, by omega⟩, ⟨_, Nat.zero_le _, hthird⟩,
    ⟨_, Nat.zero_le _, hfourth⟩, ?_⟩
  have hten : decimal 10 = lit "10" := by decide
  have hzero : decimal 0 = lit "0" := by decide
  simp [SyslogSimulationRequest.deviceIp, hten, hzero, List.intercalate, List.intersperse,
    show lit "10.0." = [49, 48, 46, 48, 46] by decide, show lit "." = [46] by decide,
    show lit "10" = [49, 48] by decide, show lit "0" = [48] by decide]

/-! ## One second -/

/-- What is added to the totals by messages of a second: only to the handed ones and to one of the
numbers. -/
structure Adds (second : ℕ) (t : Totals) (new : List Handed) (t' : Totals) : Prop where
  handed : t'.handed = t.handed ++ new
  counted : t'.sent + t'.failed = t.sent + t.failed + new.length
  seconds : t'.seconds = t.seconds
  second : ∀ m ∈ new, m.second = second

variable {r w}

lemma Adds.refl (second : ℕ) (t : Totals) : Adds second t [] t :=
  ⟨by simp, rfl, rfl, by simp⟩

lemma Adds.trans {second : ℕ} {t t' t'' : Totals} {new new' : List Handed}
    (h : Adds second t new t') (h' : Adds second t' new' t'') :
    Adds second t (new ++ new') t'' where
  handed := by rw [h'.handed, h.handed, List.append_assoc]
  counted := by
    have := h.counted
    have := h'.counted
    rw [List.length_append]
    omega
  seconds := h'.seconds.trans h.seconds
  second := by
    intro m hm
    obtain hm | hm := List.mem_append.mp hm
    · exact h.second m hm
    · exact h'.second m hm

/-- One message is handed to the sender. -/
lemma adds_handOver (second index : ℕ) (device : Device) (t : Totals) :
    ∃ message, Adds second t [⟨second, index, message⟩] (handOver r w second index device t) ∧
      ∃ draw, message = buildSyslogMessage device r.facility draw := by
  refine ⟨buildSyslogMessage device r.facility (w.draw t.handed), ?_, _, rfl⟩
  unfold handOver
  dsimp only
  split_ifs
  · exact ⟨rfl, by simp only [List.length_singleton]; omega, rfl, by simp⟩
  · exact ⟨rfl, by simp only [List.length_singleton]; omega, rfl, by simp⟩

/-- The messages of one device. -/
def FromDevice (r : SyslogSimulationRequest) (d : Device × ℕ) (m : Handed) : Prop :=
  m.index = d.2 ∧ ∃ draw, m.message = buildSyslogMessage d.1 r.facility draw

lemma adds_iterate (second : ℕ) (d : Device × ℕ) (n : ℕ) (t : Totals) :
    ∃ new, Adds second t new ((handOver r w second d.2 d.1)^[n] t) ∧ new.length = n ∧
      ∀ m ∈ new, FromDevice r d m := by
  induction n with
  | zero => exact ⟨[], Adds.refl second t, rfl, by simp⟩
  | succ n ih =>
    obtain ⟨new, hadds, hlength, hdevice⟩ := ih
    rw [Function.iterate_succ_apply']
    obtain ⟨message, hone, hmessage⟩ := adds_handOver (r := r) (w := w) second d.2 d.1
      ((handOver r w second d.2 d.1)^[n] t)
    refine ⟨_, hadds.trans hone, by simp [hlength], ?_⟩
    intro m hm
    rw [List.mem_append, List.mem_singleton] at hm
    obtain hm | rfl := hm
    · exact hdevice m hm
    · exact ⟨rfl, hmessage⟩

/-- How many of several messages are of a device. -/
def ofDevice (index : ℕ) (ms : List Handed) : ℕ := ms.countP fun m => decide (m.index = index)

/-- What several devices add, each with its number. -/
lemma adds_devices (second : ℕ) (ds : List (Device × ℕ)) (t : Totals) :
    ∃ new, Adds second t new (ds.foldl (deviceTurn r w second) t) ∧
      new.length = (ds.map fun d => r.share d.2).sum ∧
      (∀ index, ofDevice index new =
        ((ds.filter fun d => decide (d.2 = index)).map fun d => r.share d.2).sum) ∧
      ∀ m ∈ new, ∃ d ∈ ds, FromDevice r d m := by
  induction ds generalizing t with
  | nil => exact ⟨[], Adds.refl second t, rfl, fun index => rfl, by simp⟩
  | cons d ds ih =>
    obtain ⟨first, hfirst, hlength, hdevice⟩ :=
      adds_iterate (r := r) (w := w) second d (r.share d.2) t
    obtain ⟨others, hothers, hlength', hcount, hdevice'⟩ := ih (deviceTurn r w second t d)
    refine ⟨first ++ others, hfirst.trans hothers, ?_, fun index => ?_, ?_⟩
    · rw [List.length_append, hlength, hlength', List.map_cons, List.sum_cons]
    · have hfirstCount : ofDevice index first = if d.2 = index then r.share d.2 else 0 := by
        unfold ofDevice
        split_ifs with hindex
        · rw [← hlength, List.countP_eq_length]
          exact fun m hm => by simp [(hdevice m hm).1, hindex]
        · rw [List.countP_eq_zero]
          exact fun m hm => by simp [(hdevice m hm).1, hindex]
      have happend : ofDevice index (first ++ others) =
          ofDevice index first + ofDevice index others := List.countP_append
      rw [happend, hfirstCount, hcount, List.filter_cons]
      simp only [decide_eq_true_eq]
      split_ifs with hindex
      · rw [List.map_cons, List.sum_cons]
      · rw [Nat.zero_add]
    · intro m hm
      obtain hm | hm := List.mem_append.mp hm
      · exact ⟨d, List.mem_cons_self, hdevice m hm⟩
      · obtain ⟨e, he, hfrom⟩ := hdevice' m hm
        exact ⟨e, List.mem_cons_of_mem d he, hfrom⟩

lemma zipIdx_devices : r.devices.zipIdx =
    (List.range r.deviceCount).map fun i => (r.device i, i) := by
  apply List.ext_getElem
  · simp [SyslogSimulationRequest.devices]
  · intro i hi hi'
    simp [SyslogSimulationRequest.devices]

/-- The shares of all devices make up the rate. -/
lemma sum_share : ((List.range r.deviceCount).map r.share).sum = r.eps := by
  have hsum : ∀ n, ((List.range n).map r.share).sum =
      n * (r.eps / r.deviceCount) + min n (r.eps % r.deviceCount) := by
    intro n
    induction n with
    | zero => simp
    | succ n ih =>
      rw [List.range_succ, List.map_append, List.sum_append, ih, List.map_singleton,
        List.sum_singleton, SyslogSimulationRequest.share, Nat.succ_mul]
      split_ifs <;> omega
  have hcount := r.deviceCount_bounds.1
  have hmod : r.eps % r.deviceCount < r.deviceCount := Nat.mod_lt _ hcount
  rw [hsum, min_eq_right hmod.le, Nat.div_add_mod]

/-- Only the device itself has its number. -/
lemma sum_share_of_index (index n : ℕ) :
    (((List.range n).filter fun i => decide (i = index)).map r.share).sum =
      if index < n then r.share index else 0 := by
  induction n with
  | zero => simp
  | succ n ih =>
    rw [List.range_succ, List.filter_append, List.map_append, List.sum_append, ih]
    by_cases hindex : n = index
    · subst hindex
      simp
    · rw [List.filter_cons_of_neg (by simpa using hindex), List.filter_nil, List.map_nil,
        List.sum_nil, Nat.add_zero]
      have : index < n + 1 ↔ index < n := by omega
      simp only [this]

/-- **In one second exactly the rate is handed over**, and of each device its share. -/
lemma adds_simulateSecond (second : ℕ) (t : Totals) :
    ∃ new t', Adds second t new t' ∧
      simulateSecond r w second t = { t' with seconds := t.seconds + 1 } ∧
      new.length = r.eps ∧ (∀ index < r.deviceCount, ofDevice index new = r.share index) ∧
      ∀ m ∈ new, ∃ index < r.deviceCount, FromDevice r (r.device index, index) m := by
  obtain ⟨new, hadds, hlength, hcount, hdevice⟩ :=
    adds_devices (r := r) (w := w) second r.devices.zipIdx t
  refine ⟨new, _, hadds, by rw [simulateSecond, ← hadds.seconds], ?_, fun index hindex => ?_, ?_⟩
  · rw [hlength, zipIdx_devices, List.map_map]
    exact sum_share
  · rw [hcount, zipIdx_devices, List.filter_map, List.map_map]
    have := sum_share_of_index (r := r) index r.deviceCount
    rwa [if_pos hindex] at this
  · intro m hm
    obtain ⟨d, hd, hfrom⟩ := hdevice m hm
    rw [zipIdx_devices] at hd
    obtain ⟨index, hindex, rfl⟩ := List.mem_map.mp hd
    exact ⟨index, List.mem_range.mp hindex, hfrom⟩

/-! ## The whole simulation -/

/-- The messages of a second. -/
def ofSecond (second : ℕ) (ms : List Handed) : List Handed :=
  ms.filter fun m => decide (m.second = second)

variable (r) in
/-- What holds of the totals behind every second. -/
structure Fair (t : Totals) : Prop where
  counted : t.sent + t.failed = t.handed.length
  second_lt : ∀ m ∈ t.handed, m.second < t.seconds
  total : ∀ second < t.seconds, (ofSecond second t.handed).length = r.eps
  each : ∀ second < t.seconds, ∀ index < r.deviceCount,
    ofDevice index (ofSecond second t.handed) = r.share index
  fromDevice : ∀ m ∈ t.handed, ∃ index < r.deviceCount, FromDevice r (r.device index, index) m

lemma fair_start : Fair r ⟨0, 0, [], 0⟩ where
  counted := rfl
  second_lt := by simp
  total := by simp
  each := by simp
  fromDevice := by simp

lemma ofSecond_append (second : ℕ) (ms ms' : List Handed) :
    ofSecond second (ms ++ ms') = ofSecond second ms ++ ofSecond second ms' :=
  List.filter_append _ _

/-- Another second leaves the totals fair. -/
lemma Fair.simulateSecond {t : Totals} (h : Fair r t) :
    Fair r (simulateSecond r w t.seconds t) := by
  obtain ⟨new, t', hadds, heq, hlength, hcount, hdevice⟩ :=
    adds_simulateSecond (r := r) (w := w) t.seconds t
  rw [heq]
  have hnew : ofSecond t.seconds new = new :=
    List.filter_eq_self.mpr fun m hm => by simpa using hadds.second m hm
  have hold : ofSecond t.seconds t.handed = [] :=
    List.filter_eq_nil_iff.mpr fun m hm => by have := h.second_lt m hm; simp; omega
  have hother : ∀ second < t.seconds, ofSecond second new = [] := fun second hsecond =>
    List.filter_eq_nil_iff.mpr fun m hm => by have := hadds.second m hm; simp; omega
  -- the messages of a second: those of before, or all the new ones
  have hofSecond : ∀ second, ofSecond second t'.handed =
      ofSecond second t.handed ++ ofSecond second new := fun second => by
    rw [hadds.handed, ofSecond_append]
  constructor
  case counted =>
    have hnew := hadds.counted
    have hbefore := h.counted
    show t'.sent + t'.failed = t'.handed.length
    rw [hadds.handed, List.length_append]
    omega
  case second_lt =>
    intro m hm
    rw [hadds.handed, List.mem_append] at hm
    obtain hm | hm := hm
    · have := h.second_lt m hm
      dsimp only
      omega
    · have := hadds.second m hm
      dsimp only
      omega
  case total =>
    intro second hsecond
    dsimp only at hsecond ⊢
    rw [hofSecond]
    by_cases hlast : second = t.seconds
    · rw [hlast, hold, hnew, List.nil_append, hlength]
    · have hlt : second < t.seconds := by omega
      rw [hother second hlt, List.append_nil, h.total second hlt]
  case each =>
    intro second hsecond index hindex
    dsimp only at hsecond ⊢
    rw [hofSecond]
    by_cases hlast : second = t.seconds
    · rw [hlast, hold, hnew, List.nil_append, hcount index hindex]
    · have hlt : second < t.seconds := by omega
      rw [hother second hlt, List.append_nil, h.each second hlt index hindex]
  case fromDevice =>
    intro m hm
    rw [hadds.handed, List.mem_append] at hm
    obtain hm | hm := hm
    · exact h.fromDevice m hm
    · exact hdevice m hm

lemma Fair.simulateFrom (left : ℕ) {t : Totals} (h : Fair r t) :
    Fair r (simulateFrom r w left t.seconds t) := by
  induction left generalizing t with
  | zero => exact h
  | succ left ih =>
    rw [Simulations.simulateFrom]
    split_ifs
    · obtain ⟨new, t', -, heq, -⟩ := adds_simulateSecond (r := r) (w := w) t.seconds t
      have hseconds : (Simulations.simulateSecond r w t.seconds t).seconds = t.seconds + 1 := by
        rw [heq]
      have := ih (h.simulateSecond (w := w))
      rwa [hseconds] at this
    · exact h

lemma fair_run (r : SyslogSimulationRequest) (w : Surroundings) :
    Fair r (runSyslogSimulation r w) := Fair.simulateFrom r.duration fair_start

lemma share_le_succ (i j : ℕ) : r.share i ≤ r.share j + 1 := by
  unfold SyslogSimulationRequest.share
  split_ifs <;> omega

/-- **The simulation keeps its rate and its devices apart.**  Whatever is drawn, can be sent and
when it is stopped: in each simulated second exactly the rate is handed to the sender, as evenly as
possible from the devices; what was sent and what failed make up what was handed over; the devices
have different names and different valid addresses, and their names are valid exactly if the prefix
has characters that can stand in a name. -/
theorem syslog_rate (r : SyslogSimulationRequest) (w : Surroundings) :
    (∀ second < (runSyslogSimulation r w).seconds,
      (ofSecond second (runSyslogSimulation r w).handed).length = r.eps ∧
      ∀ i < r.deviceCount, ∀ j < r.deviceCount,
        ofDevice i (ofSecond second (runSyslogSimulation r w).handed) ≤
          ofDevice j (ofSecond second (runSyslogSimulation r w).handed) + 1) ∧
    (∀ m ∈ (runSyslogSimulation r w).handed, m.second < (runSyslogSimulation r w).seconds ∧
      ∃ index < r.deviceCount, FromDevice r (r.device index, index) m) ∧
    (runSyslogSimulation r w).sent + (runSyslogSimulation r w).failed =
      (runSyslogSimulation r w).handed.length ∧
    (r.devices.map Device.name).Nodup ∧ (r.devices.map Device.ip).Nodup ∧
    ∀ d ∈ r.devices, ValidAddress d.ip ∧
      (ValidName d.name ↔ ∀ c ∈ r.deviceNamePrefix, 33 ≤ c ∧ c ≤ 126) := by
  have hfair := fair_run r w
  refine ⟨fun second hsecond => ⟨hfair.total second hsecond, fun i hi j hj => ?_⟩,
    fun m hm => ⟨hfair.second_lt m hm, hfair.fromDevice m hm⟩, hfair.counted, nodup_names r,
    nodup_addresses r, fun d hd => ?_⟩
  · rw [hfair.each second hsecond i hi, hfair.each second hsecond j hj]
    exact share_le_succ i j
  · obtain ⟨index, hindex, rfl⟩ := List.mem_map.mp hd
    exact ⟨validAddress_deviceIp index, validName_iff r index (List.mem_range.mp hindex)⟩

/-- A request whose prefix has a blank in it. -/
def sampleSyslogRequest : SyslogSimulationRequest where
  eps := 1
  duration := 1
  deviceCount := 1
  deviceType := .router
  deviceNamePrefix := lit "edge site"
  facility := 1
  eps_bounds := ⟨le_rfl, by omega⟩
  duration_bounds := ⟨le_rfl, by omega⟩
  deviceCount_bounds := ⟨le_rfl, by omega⟩
  namePrefix_le := by decide
  facility_le := by omega

/-- An accepted prefix may make names that are not valid. -/
theorem syslog_name_not_valid :
    ∃ d ∈ sampleSyslogRequest.devices, d.name = lit "edge site-01" ∧ ¬ValidName d.name := by
  refine ⟨sampleSyslogRequest.device 0, by decide, by decide, ?_⟩
  rintro ⟨-, -, hchars⟩
  exact absurd (hchars 32 (by decide)) (by omega)

end Habeny.Simulations
