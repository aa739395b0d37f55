import RufShare.Lemmas.Delivery

/-!
# The control stream

TCP delivers a stream in pieces: a `recv` may return fewer bytes than it asked for. `pull_tcp_data` takes a short `recv` for a
failure (`LOWSIZE`), and what it has read is gone from the stream. So a sequence of pulls decodes what it would decode with all the
bytes at hand up to the first short `recv`, and the pull it happens in reports it and stores nothing.
-/

namespace RufShare

open Resumption

/-- A header of the control channel, with its type: what a push sends, or what the arguments of a pull hold before it. -/
inductive Header where
  | cast (args : CastArgs)
  | flow (packet : FlowPacket)
  | send (args : SendArgs)
  | recv (packet : RecvPacket)
  deriving DecidableEq, Repr

/-- The `pull_*_header` of a header's type, on arguments that hold the header: the status and the arguments after it. -/
def pullHeader (sock : Sockfd) (timeout : Int) : Header → Prog (Status × Header)
  | .cast args => do
    let (stat, args) ← pullCastHeader sock args timeout
    return (stat, .cast args)
  | .flow packet => do
    let (stat, packet) ← pullFlowHeader sock packet timeout
    return (stat, .flow packet)
  | .send args => do
    let (stat, args) ← pullSendHeader sock args timeout
    return (stat, .send args)
  | .recv packet => do
    let (stat, packet) ← pullRecvHeader sock packet timeout
    return (stat, .recv packet)

/-- A sequence of pulls, each made whatever the one before returned. -/
def pullHeaders (sock : Sockfd) (timeout : Int) : List Header → Prog (List (Status × Header))
  | [] => return []
  | header :: headers => do
    let result ← pullHeader sock timeout header
    let results ← pullHeaders sock timeout headers
    return result :: results

namespace StreamAux

/-- A pull reports a short `recv`, and stores nothing unless it succeeds. -/
theorem after_pullHeader (sock : Sockfd) (timeout : Int) (header : Header) (s : Proc) :
    (pullHeader sock timeout header s).After
      (fun tr s' result => s' = s ∧ Honest tr result.1 ∧ (result.1 ≠ .success → result.2 = header)) := by
  have hwrap {β : Type} {x : Prog (Status × β)} {args : β} (f : β → Header)
      (hx : (x s).After (fun tr s' got => s' = s ∧ Honest tr got.1 ∧ (got.1 ≠ .success → got.2 = args))) :
      ((x >>= fun got => pure (got.1, f got.2)) s).After
        (fun tr s' result => s' = s ∧ Honest tr result.1 ∧ (result.1 ≠ .success → result.2 = f args)) := by
    refine after_bind_of hx ?_
    intro tr s' got h
    exact after_pure ⟨h.1, by rw [List.append_nil]; exact h.2.1, fun hne => congrArg f (h.2.2 hne)⟩
  cases header with
  | cast args => exact hwrap .cast (honest_packetInfostr sock .cast timeout s args
    (fun p i => { packet := convertCastPacket (.ofBytes p), info := unpackFromInfostring i args.info }))
  | flow packet => exact hwrap .flow (honest_packetOnly sock .flow timeout s packet (fun p => convertFlowPacket (.ofBytes p)))
  | send args => exact hwrap .send (honest_packetInfostr sock .send timeout s args
    (fun p i => { packet := convertSendPacket (.ofBytes p), info := unpackFromInfostring i args.info }))
  | recv packet => exact hwrap .recv (honest_packetOnly sock .recv timeout s packet (fun p => convertRecvPacket (.ofBytes p)))

/-- The program returns, whatever the answers to its calls. -/
def Completes {α : Type} (x : Prog α) : Prop := ∀ s, (x s).Complete

section Completes

variable {α β : Type}

theorem Completes.pure (a : α) : Completes (pure a : Prog α) := fun _ => trivial

theorem Completes.bind {x : Prog α} {f : α → Prog β} (hx : Completes x) (hf : ∀ a, Completes (f a)) : Completes (x >>= f) :=
  fun s => (hx s).bind (fun s a => hf a s)

theorem Completes.syscall (c : Call) : Completes (syscall c) := fun _ _ => trivial

theorem Completes.ite {c : Prop} [Decidable c] {x y : Prog α} (hx : Completes x) (hy : Completes y) :
    Completes (if c then x else y) := by
  split
  · exact hx
  · exact hy

end Completes

theorem completes_pullTcpData (sock : Sockfd) (size : Nat) (peek : Bool) : Completes (pullTcpData sock size peek) := by
  unfold pullTcpData
  refine (Completes.syscall _).bind fun received => ?_
  cases received with
  | none => exact .pure _
  | some b => exact .ite (.pure _) (.pure _)

theorem completes_pullPacket (sock : Sockfd) (type : PacketType) (timeout : Int) :
    Completes (pullPacket sock type timeout) := by
  unfold pullPacket pullType
  refine .bind ((Completes.syscall _).bind fun polled => ?_) fun stat => .ite (.pure _) (completes_pullTcpData _ _ _)
  cases polled with
  | error => exact .pure _
  | timeout => exact .pure _
  | ready hit =>
    refine .ite (.pure _) ((completes_pullTcpData _ _ _).bind fun got => .ite (.pure _) ?_)
    exact .ite (.pure _) (.pure _)

theorem completes_pullHeader (sock : Sockfd) (timeout : Int) (header : Header) : Completes (pullHeader sock timeout header) := by
  cases header with
  | cast args =>
    refine .bind ((completes_pullPacket _ _ _).bind fun got => .ite (.pure _) ?_) fun _ => .pure _
    exact (completes_pullTcpData _ _ _).bind fun got => .ite (.pure _) (.pure _)
  | flow packet => exact .bind ((completes_pullPacket _ _ _).bind fun got => .ite (.pure _) (.pure _)) fun _ => .pure _
  | send args =>
    refine .bind ((completes_pullPacket _ _ _).bind fun got => .ite (.pure _) ?_) fun _ => .pure _
    exact (completes_pullTcpData _ _ _).bind fun got => .ite (.pure _) (.pure _)
  | recv packet => exact .bind ((completes_pullPacket _ _ _).bind fun got => .ite (.pure _) (.pure _)) fun _ => .pure _

theorem completes_pullHeaders (sock : Sockfd) (timeout : Int) (headers : List Header) :
    Completes (pullHeaders sock timeout headers) := by
  induction headers with
  | nil => exact .pure _
  | cons header headers ih => exact (completes_pullHeader _ _ _).bind fun _ => ih.bind fun _ => .pure _

end StreamAux

namespace StreamRun

/-- The bytes that `push_RECV_header` sends for an acknowledgement of chunk 5. -/
def stream : Bytes := (packRecvPacket 1 0 5).bytes

/-- A process that pulls. -/
def puller : Proc := ⟨Sample.receiver, .flow⟩

/-- A delivery of `n` bytes of the stream at most for each `recv`. -/
def pieces (n : Nat) (w : Bytes) (s : Proc) : (c : Call) → c.Answer × Bytes
  | .recv .stream _ size peek =>
    (some ⟨w.take (min n size), by rw [List.length_take]; omega⟩, if peek then w else w.drop (w.take (min n size)).length)
  | c => atOnce w s c

theorem delivers_pieces {α : Type} {n : Nat} (hn : 0 < n) (w : Bytes) (t : Tree α) : Delivers w (play (pieces n) w t).1 := by
  induction t generalizing w with
  | ret s a => trivial
  | cut s => trivial
  | call s c k ih =>
    cases c with
    | poll ty fd ev timeout =>
      cases ty <;> cases ev
      case stream.pollin => exact ⟨rfl, ih _ w⟩
      all_goals exact ih _ w
    | recv ty fd size peek =>
      cases ty with
      | dgram => exact ih _ w
      | stream =>
        refine ⟨_, rfl, List.take_prefix _ _, ?_, ih _ _⟩
        intro hw hs
        rw [ne_eq, List.take_eq_nil_iff, not_or]
        exact ⟨by omega, hw⟩
    | _ => exact ih _ w

/-- The run of one `pull_RECV_header` in pieces of at most `n` bytes. -/
def run (n : Nat) : List Event × Option (Proc × List (Status × Header)) :=
  play (pieces n) stream (pullHeaders 0 1 [.recv emptyRecv] puller)

end StreamRun

end RufShare
