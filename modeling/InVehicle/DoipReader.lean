import InVehicle.DoipMessages
import InVehicle.TcpSocket
import Mathlib.Data.Rat.Defs
import Mathlib.Algebra.Order.Ring.Unbundled.Rat

/-!
# Reading DoIP messages

`DoipUtils._read_doip` on the pending reads of a connection. The parser object
lives as long as the call, so a call forgets the bytes behind the message it
returns.
-/

set_option autoImplicit false

namespace InVehicle.DoipReader
open InVehicle.Framing InVehicle.DoipMessages InVehicle.TcpSocket

variable {Msg : Type} (c : DoipClient Msg)

/-- The `while` loop of `_read_doip`: `buf` is the parser's buffer, `data` the
bytes read last, `clock k` the reading of the pass. -/
def readLoop (timeout : ℚ) (clock : ℕ → ℚ) (k : ℕ) (buf data : Bytes)
    (reads : List SockRecv) : Except PyError (Option Msg) × List SockRecv :=
  if clock k - clock 0 ≤ timeout then
    match if data = [] then none else c.readMessage (buf ++ data) with
    | some (m, _) =>
      if c.type m = .genericDoIPNegativeAcknowledge then (.ok none, reads)
      else (.ok (some m), reads)
    | none =>
      match reads with
      | [] => (.ok none, [])
      | r :: reads =>
        match tcpRecv r with
        | .error e => (.error e, reads)
        | .ok [] => (.ok none, reads)
        | .ok (b :: bs) => readLoop timeout clock (k+1) (buf ++ data) (b :: bs) reads
  else (.ok none, reads)

/-- `_read_doip` with an open connection: the first reading is `start_time`. -/
def readDoip (timeout : ℚ) (clock : ℕ → ℚ) (reads : List SockRecv) :
    Except PyError (Option Msg) × List SockRecv :=
  readLoop c timeout clock 1 [] [] reads

/-- Consecutive calls on one communicator, each with its timeout and clock. -/
def readDoipCalls : List (ℚ × (ℕ → ℚ)) → List SockRecv → List (Except PyError (Option Msg))
  | [], _ => []
  | (timeout, clock) :: calls, reads =>
    (readDoip c timeout clock reads).1 :: readDoipCalls calls (readDoip c timeout clock reads).2

/-- No deadline expires: every reading is within the timeout of the first. -/
def InTime (timeout : ℚ) (clock : ℕ → ℚ) : Prop := ∀ k, clock k - clock 0 ≤ timeout

def seen : Option Msg → Option Msg
  | none => none
  | some m => if c.type m = .genericDoIPNegativeAcknowledge then none else some m

theorem readLoop_data (timeout : ℚ) (clock : ℕ → ℚ) (hin : InTime timeout clock) (k : ℕ)
    (buf data : Bytes) (hd : data ≠ []) (reads : List SockRecv) :
    readLoop c timeout clock k buf data reads =
      match c.readMessage (buf ++ data) with
      | some (m, _) => (.ok (seen c (some m)), reads)
      | none => readLoop c timeout clock k (buf ++ data) [] reads := by
  rw [readLoop.eq_def _ _ _ k buf data, if_pos (hin k), if_neg hd]
  cases hf : c.readMessage (buf ++ data) with
  | none =>
    simp only
    rw [readLoop.eq_def _ _ _ k (buf ++ data) [], if_pos (hin k)]
    simp
  | some x =>
    simp only [seen]
    split_ifs <;> rfl

theorem readLoop_read (timeout : ℚ) (clock : ℕ → ℚ) (hin : InTime timeout clock) (k : ℕ)
    (buf b : Bytes) (hb : b ≠ []) (reads : List SockRecv) :
    readLoop c timeout clock k buf [] (.data b :: reads) =
      readLoop c timeout clock (k+1) buf b reads := by
  obtain ⟨x, bs, rfl⟩ := List.exists_cons_of_ne_nil hb
  rw [readLoop, if_pos (hin k)]
  simp [tcpRecv]

theorem readLoop_chunks (timeout : ℚ) (clock : ℕ → ℚ) (hin : InTime timeout clock)
    (cs : List Bytes) (hc : ∀ b ∈ cs, b ≠ []) (k : ℕ) (buf : Bytes) :
    readLoop c timeout clock k buf [] (cs.map .data) =
      (.ok (seen c (readOne c.readMessage buf cs).1),
        (readOne c.readMessage buf cs).2.map .data) := by
  induction cs generalizing k buf with
  | nil =>
    rw [List.map_nil, readLoop, if_pos (hin k)]
    rfl
  | cons b cs ih =>
    have hne := hc b (by simp)
    rw [List.map_cons, readLoop_read c timeout clock hin k buf b hne,
      readLoop_data c timeout clock hin (k+1) buf b hne, readOne]
    cases hf : c.readMessage (buf ++ b) with
    | none => exact ih (fun d hd => hc d (by simp [hd])) (k+1) (buf ++ b)
    | some x => rfl

theorem readDoip_frame (timeout : ℚ) (clock : ℕ → ℚ) (hin : InTime timeout clock) (b : Bytes)
    (m : Msg) (hb : IsFrame c.readMessage b m) (reads : List SockRecv) :
    readDoip c timeout clock (.data b :: reads) = (.ok (seen c (some m)), reads) := by
  have hf := hb.whole []
  rw [List.append_nil] at hf
  rw [readDoip, readLoop_read c timeout clock hin 1 [] b hb.nonempty,
    readLoop_data c timeout clock hin 2 [] b hb.nonempty, List.nil_append, hf]

theorem readDoipCalls_chunks (calls : List (ℚ × (ℕ → ℚ)))
    (hin : ∀ call ∈ calls, InTime call.1 call.2) (cs : List Bytes) (hc : ∀ b ∈ cs, b ≠ []) :
    readDoipCalls c calls (cs.map .data) =
      (readCalls c.readMessage calls.length cs).map fun x => .ok (seen c x) := by
  induction calls generalizing cs with
  | nil => rfl
  | cons call calls ih =>
    obtain ⟨timeout, clock⟩ := call
    have hread := readLoop_chunks c timeout clock (hin (timeout, clock) (by simp)) cs hc 1 []
    have hrest : ∀ b ∈ (readOne c.readMessage [] cs).2, b ≠ [] :=
      fun b hb => hc b (readOne_rest c.readMessage [] cs b hb)
    rw [readDoipCalls, readDoip, hread, List.length_cons, readCalls, List.map_cons]
    rw [ih (fun call h => hin call (by simp [h])) _ hrest]

theorem seen_eq_some (x : Option Msg) (m : Msg)
    (hm : c.type m ≠ .genericDoIPNegativeAcknowledge) : seen c x = some m ↔ x = some m := by
  cases x with
  | none => simp [seen]
  | some m' =>
    simp only [seen]
    split_ifs with h
    · refine ⟨(fun h => by cases h), ?_⟩
      rintro ⟨⟩
      exact absurd h hm
    · rfl

theorem map_seen_iff (xs : List (Option Msg)) (ms : List Msg)
    (hm : ∀ m ∈ ms, c.type m ≠ .genericDoIPNegativeAcknowledge) :
    (xs.map fun x => (Except.ok (seen c x) : Except PyError (Option Msg))) =
        ms.map (fun m => .ok (some m)) ↔ xs = ms.map some := by
  induction xs generalizing ms with
  | nil => cases ms <;> simp
  | cons x xs ih =>
    cases ms with
    | nil => simp
    | cons m ms =>
      simp only [List.map_cons, List.cons.injEq, Except.ok.injEq]
      rw [seen_eq_some c x m (hm m (by simp)), ih ms (fun m h => hm m (by simp [h]))]

/-- For frames cut into non-empty reads and no deadline expiring, consecutive
calls return exactly the messages sent if and only if every message ends where
a read ends. -/
theorem readDoipCalls_iff (hsize : c.Sized) (ws : List Bytes) (ms : List Msg)
    (hw : List.Forall₂ (IsFrame c.readMessage) ws ms)
    (hm : ∀ m ∈ ms, c.type m ≠ .genericDoIPNegativeAcknowledge)
    (cs : List Bytes) (hc : ∀ b ∈ cs, b ≠ []) (hcs : cs.flatten = ws.flatten)
    (calls : List (ℚ × (ℕ → ℚ))) (hin : ∀ call ∈ calls, InTime call.1 call.2)
    (hn : calls.length = ms.length) :
    readDoipCalls c calls (cs.map .data) = ms.map (fun m => .ok (some m)) ↔ Aligned ws cs := by
  rw [readDoipCalls_chunks c calls hin cs hc, hn, map_seen_iff c _ ms hm]
  exact readCalls_iff hsize ws ms hw cs hc hcs

theorem readDoipCalls_two :
    let ack : Message := (0x8002, [0x10, 0x00, 0x0E, 0x00, 0x00])
    let answer : Message := (0x8001, [0x10, 0x00, 0x0E, 0x00, 0x7E, 0x00])
    let ws := [packMessage 2 ack, packMessage 2 answer]
    let calls : List (ℚ × (ℕ → ℚ)) := [(1, fun _ => 0), (1, fun _ => 0)]
    let reads := [ws[0].take 3, ws[0].drop 3, ws[1]]
    Aligned ws reads ∧
      readDoipCalls isoClient calls (reads.map .data) = [.ok (some ack), .ok (some answer)] := by
  intro ack answer ws calls reads
  have hack := packMessage_frame 2 ack (by decide) (by decide)
  have hanswer := packMessage_frame 2 answer (by decide) (by decide)
  have haligned : Aligned ws reads := ⟨[[ws[0].take 3, ws[0].drop 3], [ws[1]]], rfl, rfl⟩
  exact ⟨haligned, (readDoipCalls_iff isoClient isoClient_sized ws [ack, answer]
    (.cons hack (.cons hanswer .nil)) (by decide) reads (by decide) rfl calls
    (by simp [calls, InTime]) rfl).mpr haligned⟩

/-- Two messages in one read: the second is never returned. -/
theorem second_message_lost :
    let ack : Message := (0x8002, [0x10, 0x00, 0x0E, 0x00, 0x00])
    let answer : Message := (0x8001, [0x10, 0x00, 0x0E, 0x00, 0x7E, 0x00])
    let ws := [packMessage 2 ack, packMessage 2 answer]
    let calls : List (ℚ × (ℕ → ℚ)) := [(1, fun _ => 0), (1, fun _ => 0)]
    List.Forall₂ (IsFrame isoClient.readMessage) ws [ack, answer] ∧
      (∀ m ∈ [ack, answer], isoClient.type m ≠ .genericDoIPNegativeAcknowledge) ∧
      (∀ call ∈ calls, InTime call.1 call.2) ∧ ws.flatten ≠ [] ∧
      readDoipCalls isoClient calls [.data ws.flatten] = [.ok (some ack), .ok none] := by
  intro ack answer ws calls
  have hack := packMessage_frame 2 ack (by decide) (by decide)
  have hanswer := packMessage_frame 2 answer (by decide) (by decide)
  exact ⟨.cons hack (.cons hanswer .nil), by decide, by simp [calls, InTime], by decide,
    by decide +kernel⟩

end InVehicle.DoipReader
