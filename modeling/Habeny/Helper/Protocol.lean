import Habeny.Helper.Server
import Habeny.Lib.JsonText

/-!
# Messages to and from the helper

A message is the length of its body in four bytes, and the body, which is JSON.  The other end may
send descriptors with it.  A socket gives the bytes of its stream in chunks of any size, and then
the end of the stream; `recv_message` puts the message together again, or raises an exception.
-/

namespace Habeny.Helper.Protocol

open Habeny.Lib JsonText

/-! ## Sockets -/

/-- Some bytes that arrive together. -/
abbrev Chunk := { bytes : List UInt8 // bytes ≠ [] }

/-- The receiving end of a connection: what arrives before the end of the stream, the descriptors
that come with the first byte, and how often something was received. -/
structure Socket where
  chunks : List Chunk
  fds : List ℕ
  received : ℕ

namespace Socket

def bytes (s : Socket) : List UInt8 := (s.chunks.map Subtype.val).flatten

/-- Receive at most `n` bytes, and none at the end of the stream. -/
def recv (n : ℕ) (s : Socket) : List UInt8 × Socket :=
  match s.chunks with
  | [] => ([], { s with fds := [], received := s.received + 1 })
  | c :: cs =>
    if h : n < c.val.length then
      (c.val.take n,
        { chunks := ⟨c.val.drop n, by rw [ne_eq, List.drop_eq_nil_iff]; omega⟩ :: cs
          fds := []
          received := s.received + 1 })
    else (c.val, { chunks := cs, fds := [], received := s.received + 1 })

lemma recv_append (n : ℕ) (s : Socket) : (s.recv n).1 ++ (s.recv n).2.bytes = s.bytes := by
  rw [recv, bytes, bytes]
  split
  · next h => simp [h]
  · next c cs h =>
    split_ifs with hn
    · simp [h, ← List.append_assoc]
    · simp [h]

lemma recv_length_le (n : ℕ) (s : Socket) : (s.recv n).1.length ≤ n := by
  rw [recv]
  split
  · exact Nat.zero_le _
  · split_ifs with hn
    · exact List.length_take_le ..
    · exact Nat.le_of_not_lt hn

/-- Nothing is received only at the end of the stream. -/
lemma recv_eq_nil {n : ℕ} {s : Socket} (hn : 0 < n) (h : (s.recv n).1 = []) : s.bytes = [] := by
  rw [recv] at h
  split at h
  · next hchunks => rw [bytes, hchunks]; rfl
  · next c cs hchunks =>
    split_ifs at h with hlong
    · rcases List.take_eq_nil_iff.mp h with hzero | hnil
      · omega
      · exact absurd hnil c.property
    · exact absurd h c.property

@[simp] lemma recv_received (n : ℕ) (s : Socket) : (s.recv n).2.received = s.received + 1 := by
  rw [recv]
  split
  · rfl
  · split_ifs <;> rfl

end Socket

/-! ## Receiving -/

inductive Error where
  /-- `ConnectionError` -/
  | connection (text : Text)
  /-- `ValueError` -/
  | value (text : Text)
  deriving DecidableEq

def closedMidMessage : Error := .connection "helper connection closed mid-message".toList

/-- Receive up to `n` bytes in all, of which there are some (`_recv_exact`). -/
def recvExact (n : ℕ) (buf : List UInt8) (s : Socket) : Except Error (List UInt8) × Socket :=
  if _hn : buf.length < n then
    let r := s.recv (min (n - buf.length) (1 <<< 20))
    if _hr : r.1 = [] then (.error closedMidMessage, r.2) else recvExact n (buf ++ r.1) r.2
  else (.ok buf, s)
termination_by n - buf.length
decreasing_by
  have hpos : 0 < (s.recv (min (n - buf.length) (1 <<< 20))).1.length :=
    List.length_pos_iff.mpr _hr
  rw [List.length_append]
  omega

/-- `struct.pack(">I", n)`, where the number fits. -/
def pack (n : ℕ) : List UInt8 :=
  [.ofNat (n / 2 ^ 24), .ofNat (n / 2 ^ 16), .ofNat (n / 2 ^ 8), .ofNat n]

/-- `struct.unpack(">I", header)` -/
def unpack (header : List UInt8) : ℕ := header.foldl (fun n b => n * 2 ^ 8 + b.toNat) 0

variable (F : FloatText)

/-- The payloads, and how bytes are decoded that are not all ASCII. -/
abbrev Payload := { v : JsonValue // IsPayload F v }

/-- The decoders for bytes that are not all ASCII, or have a null among them. -/
abbrev Decoder := List UInt8 → Option CodeText

def isAscii (b : List UInt8) : Bool := b.all fun c => decide (0 < c.toNat ∧ c.toNat < 128)

/-- `json.loads` of bytes -/
def loadsBytes (decode : Decoder) (b : List UInt8) : Option JsonValue :=
  (if isAscii b then some (b.map UInt8.toNat) else decode b).bind (loads F)

/-- The first chunk, with at most `wantFds` descriptors, where some are wanted. -/
def recvFirst (wantFds : ℕ) (s : Socket) : Except Error (List UInt8 × List ℕ) × Socket :=
  if wantFds = 0 then (.ok ([], []), s)
  else
    let r := s.recv 65536
    if r.1 = [] then (.error (.connection "helper closed the connection".toList), r.2)
    else (.ok (r.1, s.fds.take wantFds), r.2)

/-- The four bytes of the length, of which some may be in the first chunk. -/
def recvHeader (first : List UInt8) (s : Socket) : Except Error (List UInt8) × Socket :=
  if first.length < 4 then recvExact 4 (first.take 4) s else (.ok (first.take 4), s)

def tooLarge : Error := .value "message too large".toList

def parseBody (decode : Decoder) (body : List UInt8) : Except Error JsonValue :=
  match loadsBytes F decode body with
  | some v => .ok v
  | none => .error (.value "Expecting value".toList)

/-- The message, after a first chunk. -/
def recvRest (decode : Decoder) (first : List UInt8) (s : Socket) :
    Except Error JsonValue × Socket :=
  match recvHeader first s with
  | (.error e, s) => (.error e, s)
  | (.ok header, s) =>
    if maxMessage < unpack header then (.error tooLarge, s)
    else
      match recvExact (unpack header) (first.drop 4) s with
      | (.error e, s) => (.error e, s)
      | (.ok body, s) => (parseBody F decode (body.take (unpack header)), s)

def recvMessage (decode : Decoder) (wantFds : ℕ) (s : Socket) :
    Except Error (JsonValue × List ℕ) × Socket :=
  match recvFirst wantFds s with
  | (.error e, s) => (.error e, s)
  | (.ok (first, fds), s) =>
    let r := recvRest F decode first s
    (r.1.map fun v => (v, fds), r.2)

/-! ## Sending -/

variable {F}

/-- `json.dumps(payload).encode()` -/
def Payload.body (p : Payload F) : List UInt8 := (text F p.val).map UInt8.ofNat

/-- The bytes that are sent, with the first of which go the descriptors; a body whose length has
no four bytes is not (`send_message`). -/
def sendMessage (p : Payload F) (fds : List ℕ) : Option (List UInt8 × List ℕ) :=
  if p.body.length < 2 ^ 32 then some (pack p.body.length ++ p.body, fds) else none

/-! ## What is received -/

variable {decode : Decoder} {n : ℕ} {buf : List UInt8} {s : Socket}

/-- How far a socket gets: `k` bytes further, with a call for each byte at most, and `more` calls
besides. -/
structure Advances (s : Socket) (k more : ℕ) (s' : Socket) : Prop where
  bytes : s'.bytes = s.bytes.drop k
  received : s'.received + s'.bytes.length ≤ s.received + s.bytes.length + more

/-- Receiving up to `n` bytes takes what is missing from the stream, where it has as much. -/
lemma recvExact_spec (n : ℕ) (buf : List UInt8) (s : Socket) :
    ∃ s', recvExact n buf s =
        (if n ≤ buf.length + s.bytes.length then .ok (buf ++ s.bytes.take (n - buf.length))
          else .error closedMidMessage, s') ∧
      Advances s (n - buf.length) (if n ≤ buf.length + s.bytes.length then 0 else 1) s' := by
  induction buf, s using recvExact.induct n with
  | case1 buf s hn r hr =>
    have hend : s.bytes = [] := Socket.recv_eq_nil (by omega) hr
    have hleft : r.2.bytes = [] := by
      have happend := Socket.recv_append (min (n - buf.length) (1 <<< 20)) s
      rw [hend] at happend
      exact (List.append_eq_nil_iff.mp happend).2
    have hshort : ¬n ≤ buf.length + s.bytes.length := by
      rw [hend, List.length_nil]
      omega
    refine ⟨r.2, ?_, ?_, ?_⟩
    · rw [recvExact, dif_pos hn, if_neg hshort]
      simp only [r] at hr ⊢
      rw [dif_pos hr]
    · rw [hleft, hend, List.drop_nil]
    · rw [if_neg hshort, hleft, hend, Socket.recv_received]
      exact le_rfl
  | case2 buf s hn r hr ih =>
    have happend : r.1 ++ r.2.bytes = s.bytes := Socket.recv_append _ s
    have hlength : r.1.length ≤ n - buf.length :=
      (Socket.recv_length_le _ s).trans (min_le_left ..)
    have hpos : 0 < r.1.length := List.length_pos_iff.mpr hr
    have hbytes : s.bytes.length = r.1.length + r.2.bytes.length := by
      rw [← happend, List.length_append]
    have hrest : n - (buf ++ r.1).length = n - buf.length - r.1.length := by
      rw [List.length_append]
      omega
    have hsame : (buf ++ r.1).length + r.2.bytes.length = buf.length + s.bytes.length := by
      rw [List.length_append, hbytes, Nat.add_assoc]
    have htake : s.bytes.take (n - buf.length) =
        r.1 ++ r.2.bytes.take (n - (buf ++ r.1).length) := by
      rw [← happend, List.take_append, List.take_of_length_le hlength, hrest]
    obtain ⟨s', hrecv, hadvances⟩ := ih
    rw [hsame] at hrecv hadvances
    refine ⟨s', ?_, ?_, ?_⟩
    · rw [recvExact, dif_pos hn, htake, ← List.append_assoc]
      simp only [r] at hr hrecv ⊢
      rw [dif_neg hr, hrecv]
    · rw [hadvances.bytes, hrest, ← happend, List.drop_append, List.drop_of_length_le hlength,
        List.nil_append]
    · have hreceived := hadvances.received
      rw [Socket.recv_received] at hreceived
      omega
  | case3 buf s hn =>
    have hzero : n - buf.length = 0 := by omega
    have henough : n ≤ buf.length + s.bytes.length := by omega
    refine ⟨s, ?_, ?_, ?_⟩
    · rw [recvExact, dif_neg hn, if_pos henough, hzero, List.take_zero, List.append_nil]
    · rw [hzero, List.drop_zero]
    · exact Nat.le_add_right ..

lemma Advances.trans {s s₁ s₂ : Socket} {k k₁ more more₁ : ℕ} (h : Advances s k more s₁)
    (h₁ : Advances s₁ k₁ more₁ s₂) : Advances s (k + k₁) (more + more₁) s₂ where
  bytes := by rw [h₁.bytes, h.bytes, List.drop_drop]
  received := by
    have := h.received
    have := h₁.received
    omega

/-! ## A message in a stream -/

/-- The message at the beginning of a whole stream, however it arrives. -/
def parse (F : FloatText) (decode : Decoder) (t : List UInt8) : Except Error JsonValue :=
  if t.length < 4 then .error closedMidMessage
  else if maxMessage < unpack (t.take 4) then .error tooLarge
  else if t.length < 4 + unpack (t.take 4) then .error closedMidMessage
  else parseBody F decode ((t.drop 4).take (unpack (t.take 4)))

/-- How much of a stream the message is: its length, and its body unless that is too large. -/
def needed (t : List UInt8) : ℕ :=
  if t.length < 4 ∨ maxMessage < unpack (t.take 4) then 4 else 4 + unpack (t.take 4)

lemma recvHeader_spec (first : List UInt8) (s : Socket) :
    ∃ s', recvHeader first s =
        (if (first ++ s.bytes).length < 4 then .error closedMidMessage
          else .ok ((first ++ s.bytes).take 4), s') ∧
      Advances s (4 - first.length) (if (first ++ s.bytes).length < 4 then 1 else 0) s' := by
  rw [recvHeader, List.length_append]
  by_cases hfirst : first.length < 4
  · have hall : first.take 4 = first := List.take_of_length_le (by omega)
    obtain ⟨s', hrecv, hadvances⟩ := recvExact_spec 4 first s
    refine ⟨s', ?_, ?_⟩
    · rw [if_pos hfirst, hall, hrecv, List.take_append, hall]
      by_cases henough : 4 ≤ first.length + s.bytes.length
      · rw [if_pos henough, if_neg (by omega)]
      · rw [if_neg henough, if_pos (by omega)]
    · by_cases henough : 4 ≤ first.length + s.bytes.length
      · rw [if_pos henough] at hadvances
        rwa [if_neg (by omega)]
      · rw [if_neg henough] at hadvances
        rwa [if_pos (by omega)]
  · have hzero : 4 - first.length = 0 := by omega
    refine ⟨s, ?_, ?_, ?_⟩
    · rw [if_neg hfirst, if_neg (by omega), List.take_append_of_le_length (by omega)]
    · rw [hzero, List.drop_zero]
    · exact Nat.le_add_right ..

/-- **What is received is the message in the stream**, whatever the chunks are. -/
lemma recvRest_spec (decode : Decoder) (first : List UInt8) (s : Socket) :
    ∃ s', recvRest F decode first s = (parse F decode (first ++ s.bytes), s') ∧
      Advances s (needed (first ++ s.bytes) - first.length) 1 s' := by
  obtain ⟨s₁, hheader, hadvances⟩ := recvHeader_spec first s
  rw [recvRest, parse, needed, hheader]
  by_cases hshort : (first ++ s.bytes).length < 4
  · simp only [hshort, true_or, if_true] at hadvances ⊢
    exact ⟨s₁, rfl, hadvances⟩
  · simp only [hshort, false_or, if_false] at hadvances ⊢
    by_cases hlarge : maxMessage < unpack ((first ++ s.bytes).take 4)
    · simp only [hlarge, if_true]
      exact ⟨s₁, rfl, hadvances.bytes, hadvances.received.trans (Nat.le_succ _)⟩
    · simp only [hlarge, if_false]
      generalize unpack ((first ++ s.bytes).take 4) = n
      obtain ⟨s₂, hbody, hadvances₂⟩ := recvExact_spec n (first.drop 4) s₁
      have hbytes : first.drop 4 ++ s₁.bytes = (first ++ s.bytes).drop 4 := by
        rw [hadvances.bytes, List.drop_append]
      have hlength : (first.drop 4).length + s₁.bytes.length = (first ++ s.bytes).length - 4 := by
        rw [← List.length_append, hbytes, List.length_drop]
      have hconsumed : 4 - first.length + (n - (first.drop 4).length) = 4 + n - first.length := by
        rw [List.length_drop]
        omega
      rw [hlength] at hbody hadvances₂
      refine ⟨s₂, ?_, ?_⟩
      · rw [hbody]
        by_cases hbodyShort : (first ++ s.bytes).length < 4 + n
        · rw [if_neg (by omega), if_pos hbodyShort]
        · rw [if_pos (by omega), if_neg hbodyShort]
          have htake : (first.drop 4 ++ s₁.bytes.take (n - (first.drop 4).length)).take n =
              ((first ++ s.bytes).drop 4).take n := by
            rw [← hbytes, List.take_append, List.take_append, List.take_take, min_self]
          rw [← htake]
      · have hboth := hadvances.trans hadvances₂
        rw [hconsumed] at hboth
        refine ⟨hboth.bytes, hboth.received.trans ?_⟩
        split_ifs <;> omega

lemma recvMessage_plain (decode : Decoder) (s : Socket) :
    ∃ s', recvMessage F decode 0 s = ((parse F decode s.bytes).map fun v => (v, []), s') ∧
      Advances s (needed s.bytes) 1 s' := by
  obtain ⟨s', hrest, hadvances⟩ := recvRest_spec (F := F) decode [] s
  rw [List.nil_append, List.length_nil, Nat.sub_zero] at hadvances
  refine ⟨s', ?_, hadvances⟩
  rw [recvMessage, recvFirst, if_pos rfl]
  simp only [hrest, List.nil_append]

/-- Where descriptors are wanted, the first chunk is received whole. -/
lemma recvMessage_fds (decode : Decoder) {wantFds : ℕ} (hwant : 0 < wantFds) {s : Socket}
    (hs : s.bytes ≠ []) :
    ∃ s', recvMessage F decode wantFds s =
        ((parse F decode s.bytes).map fun v => (v, s.fds.take wantFds), s') ∧
      Advances s (max (s.recv 65536).1.length (needed s.bytes)) 1 s' := by
  have hfirst : (s.recv 65536).1 ≠ [] := fun h => hs (Socket.recv_eq_nil (by decide) h)
  have hpos : 0 < (s.recv 65536).1.length := List.length_pos_iff.mpr hfirst
  have happend := Socket.recv_append 65536 s
  have hadvances : Advances s (s.recv 65536).1.length 0 (s.recv 65536).2 := by
    refine ⟨?_, ?_⟩
    · rw [← happend, List.drop_left]
    · rw [Socket.recv_received, ← happend, List.length_append]
      omega
  obtain ⟨s', hrest, hadvances'⟩ := recvRest_spec (F := F) decode (s.recv 65536).1 (s.recv 65536).2
  rw [happend] at hrest hadvances'
  refine ⟨s', ?_, ?_⟩
  · rw [recvMessage, recvFirst, if_neg (by omega)]
    simp only [hfirst, if_false, hrest]
  · have hboth := hadvances.trans hadvances'
    have hmax : (s.recv 65536).1.length + (needed s.bytes - (s.recv 65536).1.length) =
        max (s.recv 65536).1.length (needed s.bytes) := by omega
    rwa [Nat.zero_add, hmax] at hboth

lemma recvMessage_fds_nil (decode : Decoder) {wantFds : ℕ} (hwant : 0 < wantFds) {s : Socket}
    (hs : s.bytes = []) :
    ∃ s', recvMessage F decode wantFds s =
        (.error (.connection "helper closed the connection".toList), s') ∧
      s'.received = s.received + 1 := by
  have hfirst : (s.recv 65536).1 = [] := by
    have happend := Socket.recv_append 65536 s
    rw [hs] at happend
    exact (List.append_eq_nil_iff.mp happend).1
  refine ⟨(s.recv 65536).2, ?_, Socket.recv_received ..⟩
  rw [recvMessage, recvFirst, if_neg (by omega)]
  simp only [hfirst, if_true]

/-! ## A message that was sent -/

lemma unpack_pack {n : ℕ} (h : n < 2 ^ 32) : unpack (pack n) = n := by
  simp only [pack, unpack, List.foldl_cons, List.foldl_nil, UInt8.toNat_ofNat']
  omega

/-- Every character of a text has its own byte. -/
lemma toNat_body (p : Payload F) : p.body.map UInt8.toNat = text F p.val := by
  rw [Payload.body, List.map_map]
  refine (List.map_congr_left fun c hc => ?_).trans (List.map_id _)
  have hprintable := isAsciiText_text p.val p.property c hc
  rw [isPrintable, decide_eq_true_eq] at hprintable
  rw [Function.comp_apply, UInt8.toNat_ofNat', id_eq]
  omega

lemma isAscii_body (p : Payload F) : isAscii p.body = true := by
  rw [isAscii, List.all_eq_true]
  intro b hb
  have hprintable := isAsciiText_text p.val p.property b.toNat
    (toNat_body p ▸ List.mem_map_of_mem hb)
  rw [isPrintable, decide_eq_true_eq] at hprintable
  rw [decide_eq_true_eq]
  omega

lemma loadsBytes_body (p : Payload F) (decode : Decoder) :
    loadsBytes F decode p.body = some p.val := by
  rw [loadsBytes, isAscii_body, if_pos rfl, toNat_body, Option.bind_some]
  exact loads_text p.property

lemma take_pack (n : ℕ) (t : List UInt8) : (pack n ++ t).take 4 = pack n := rfl

lemma drop_pack (n : ℕ) (t : List UInt8) : (pack n ++ t).drop 4 = t := rfl

/-- The message that was sent is the one at the beginning of the stream. -/
lemma parse_sent (p : Payload F) (decode : Decoder) (h : p.body.length ≤ maxMessage)
    (rest : List UInt8) :
    parse F decode (pack p.body.length ++ p.body ++ rest) = .ok p.val ∧
      needed (pack p.body.length ++ p.body ++ rest) = (pack p.body.length ++ p.body).length := by
  have hlength : (pack p.body.length).length = 4 := rfl
  have hunpack : unpack (pack p.body.length) = p.body.length :=
    unpack_pack (h.trans_lt (by decide))
  have htotal : (pack p.body.length ++ p.body ++ rest).length =
      4 + p.body.length + rest.length := by
    rw [List.length_append, List.length_append, hlength]
  rw [parse, needed, htotal, List.append_assoc, take_pack, drop_pack, hunpack]
  constructor
  · rw [if_neg (by omega), if_neg (by omega), if_neg (by omega), List.take_left, parseBody,
      loadsBytes_body]
  · rw [if_neg (by omega), List.length_append, hlength]

/-- No message is in a stream that ends before the one that was sent. -/
lemma parse_truncated (p : Payload F) (decode : Decoder) (h : p.body.length ≤ maxMessage)
    {t : List UInt8} (ht : t <+: pack p.body.length ++ p.body)
    (hne : t ≠ pack p.body.length ++ p.body) : parse F decode t = .error closedMidMessage := by
  have hshorter : t.length < 4 + p.body.length := by
    have hle := ht.length_le
    rw [List.length_append] at hle
    refine lt_of_le_of_ne hle fun heq => hne (ht.eq_of_length ?_)
    rw [heq, List.length_append]
    rfl
  rw [parse]
  by_cases hheader : t.length < 4
  · rw [if_pos hheader]
  · have htake : t.take 4 = pack p.body.length := by
      obtain ⟨rest, hrest⟩ := ht
      rw [← take_pack p.body.length p.body, ← hrest, List.take_append_of_le_length (by omega)]
    have hunpack : unpack (pack p.body.length) = p.body.length :=
      unpack_pack (h.trans_lt (by decide))
    rw [if_neg hheader, htake, hunpack, if_neg (by omega), if_pos hshorter]

/-- What becomes of the bytes and the descriptors that were sent. -/
structure Delivered (decode : Decoder) (p : Payload F) (data : List UInt8) (fds : List ℕ) :
    Prop where
  /-- Without descriptors just the bytes of the message are received. -/
  plain : ∀ s rest, s.bytes = data ++ rest →
    ∃ s', recvMessage F decode 0 s = (.ok (p.val, []), s') ∧ s'.bytes = rest
  withFds : ∀ s rest wantFds, 0 < wantFds → fds.length ≤ wantFds → s.bytes = data ++ rest →
    s.fds = fds → ∃ s', recvMessage F decode wantFds s = (.ok (p.val, fds), s')
  truncated : ∀ s wantFds, s.bytes <+: data → s.bytes ≠ data →
    ∃ text s', recvMessage F decode wantFds s = (.error (.connection text), s')

lemma delivered (p : Payload F) (decode : Decoder) (h : p.body.length ≤ maxMessage)
    (fds : List ℕ) : Delivered decode p (pack p.body.length ++ p.body) fds where
  plain := by
    intro s rest hs
    obtain ⟨hparse, hneeded⟩ := parse_sent p decode h rest
    obtain ⟨s', hrecv, hadvances⟩ := recvMessage_plain (F := F) decode s
    rw [hs, hparse] at hrecv
    refine ⟨s', hrecv, ?_⟩
    rw [hadvances.bytes, hs, hneeded, List.drop_left]
  withFds := by
    intro s rest wantFds hwant hfds hs hsent
    obtain ⟨hparse, -⟩ := parse_sent p decode h rest
    have hne : s.bytes ≠ [] := by rw [hs]; simp [pack]
    obtain ⟨s', hrecv, -⟩ := recvMessage_fds (F := F) decode hwant hne
    rw [hs, hparse, hsent, List.take_of_length_le hfds] at hrecv
    exact ⟨s', hrecv⟩
  truncated := by
    intro s wantFds hprefix hne
    have hparse := parse_truncated p decode h hprefix hne
    rcases Nat.eq_zero_or_pos wantFds with rfl | hwant
    · obtain ⟨s', hrecv, -⟩ := recvMessage_plain (F := F) decode s
      rw [hparse] at hrecv
      exact ⟨_, s', hrecv⟩
    · by_cases hs : s.bytes = []
      · obtain ⟨s', hrecv, -⟩ := recvMessage_fds_nil (F := F) decode hwant hs
        exact ⟨_, s', hrecv⟩
      · obtain ⟨s', hrecv, -⟩ := recvMessage_fds (F := F) decode hwant hs
        rw [hparse] at hrecv
        exact ⟨_, s', hrecv⟩

/-- How many bytes are in the first chunk that is received for the sake of descriptors. -/
def firstLength (wantFds : ℕ) (s : Socket) : ℕ := if wantFds = 0 then 0 else (s.recv 65536).1.length

lemma recvMessage_tooLarge (decode : Decoder) {s : Socket} (wantFds : ℕ)
    (hheader : 4 ≤ s.bytes.length) (hlarge : maxMessage < unpack (s.bytes.take 4)) :
    ∃ s', recvMessage F decode wantFds s = (.error tooLarge, s') ∧
      s'.bytes = s.bytes.drop (max (firstLength wantFds s) 4) := by
  have hparse : parse F decode s.bytes = .error tooLarge := by
    rw [parse, if_neg (by omega), if_pos hlarge]
  have hneeded : needed s.bytes = 4 := if_pos (.inr hlarge)
  rcases Nat.eq_zero_or_pos wantFds with rfl | hwant
  · obtain ⟨s', hrecv, hadvances⟩ := recvMessage_plain (F := F) decode s
    rw [hparse] at hrecv
    refine ⟨s', hrecv, ?_⟩
    rw [hadvances.bytes, hneeded, firstLength, if_pos rfl, Nat.zero_max]
  · have hs : s.bytes ≠ [] := by
      intro heq
      rw [heq] at hheader
      exact absurd hheader (by decide)
    obtain ⟨s', hrecv, hadvances⟩ := recvMessage_fds (F := F) decode hwant hs
    rw [hparse] at hrecv
    refine ⟨s', hrecv, ?_⟩
    rw [hadvances.bytes, hneeded, firstLength, if_neg (by omega)]

lemma recvMessage_received (decode : Decoder) (s : Socket) (wantFds : ℕ) :
    (recvMessage F decode wantFds s).2.received ≤ s.received + s.bytes.length + 1 := by
  rcases Nat.eq_zero_or_pos wantFds with rfl | hwant
  · obtain ⟨s', hrecv, hadvances⟩ := recvMessage_plain (F := F) decode s
    rw [hrecv]
    exact (Nat.le_add_right ..).trans hadvances.received
  · by_cases hs : s.bytes = []
    · obtain ⟨s', hrecv, hreceived⟩ := recvMessage_fds_nil (F := F) decode hwant hs
      rw [hrecv]
      exact hreceived.le.trans (by omega)
    · obtain ⟨s', hrecv, hadvances⟩ := recvMessage_fds (F := F) decode hwant hs
      rw [hrecv]
      exact (Nat.le_add_right ..).trans hadvances.received

lemma takeWhile_intText (n : ℤ) :
    (intText n ++ CodeText.lit ".0").takeWhile (fun c => decide (c ≠ code '.')) = intText n := by
  rw [List.takeWhile_append_of_pos]
  · exact List.append_nil _
  · intro c hc
    obtain ⟨d, hd, rfl⟩ := List.mem_map.mp hc
    rw [decide_eq_true_eq, ne_eq, Char.toNat_inj]
    rintro rfl
    exact absurd (Json.isNumeric_of_mem_intText hd) (by decide)

/-- The floats that are whole numbers of at most 16 digits. -/
def wholeFloats : FloatText where
  isFloat q := q.den = 1 ∧ q.num.natAbs < 10 ^ 16
  repr q := intText q.num ++ CodeText.lit ".0"
  read t := .finite (Json.readInt
    ((t.takeWhile fun c => decide (c ≠ code '.')).map Char.ofNat))
  isFloatText := by
    refine fun q _ => ⟨intText q.num, CodeText.lit ".0", [], isInteger_intText q.num,
      .inr ⟨[code '0'], ⟨by decide, by decide⟩, rfl⟩, .inl rfl, .inl (by decide), ?_⟩
    rw [List.append_nil]
  read_repr := by
    rintro q ⟨hden, -⟩
    have hback : (intText q.num).map Char.ofNat = Json.intText q.num := by
      rw [intText, List.map_map]
      exact List.map_id'' (fun c => Char.ofNat_toNat c) _
    rw [takeWhile_intText, hback, Json.readInt_intText, (Rat.den_eq_one_iff q).mp hden]

/-- `{"ok": true}` -/
def okResponse : Payload wholeFloats :=
  ⟨.dict [(CodeText.lit "ok", .bool true)], by decide, ⟨by decide, by decide⟩, trivial, trivial⟩

end Habeny.Helper.Protocol
