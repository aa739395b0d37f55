import RufShare.Lemmas.Within
import RufShare.Lemmas.Chunks

/-!
# Programs that come to an end

`Total x`: whatever the calls of `x` are answered, no branch of it is cut. The functions of the control channel have no loop without
a bound and are total. The loops over the segments of a chunk come to an end when the segments are not empty, and the transfer
loops when they are allowed more rounds than there are chunks.
-/

namespace RufShare

open Resumption

/-- No branch of the program is cut, from any state. -/
def Total {α : Type} (x : Prog α) : Prop := ∀ s, (x s).Complete

section Total

variable {α β : Type}

theorem Total.pure (a : α) : Total (pure a : Prog α) := fun _ => trivial

theorem Total.bind {x : Prog α} {f : α → Prog β} (hx : Total x) (hf : ∀ a, Total (f a)) : Total (x >>= f) :=
  fun s => (hx s).bind (fun s a => hf a s)

theorem Total.syscall (c : Call) : Total (syscall c) := fun _ _ => trivial

theorem Total.conf : Total conf := fun _ => trivial

theorem Total.setConf (f : InitConfig → InitConfig) : Total (setConf f) := fun _ => trivial

theorem Total.enter (p : Phase) : Total (enter p) := fun _ => trivial

theorem Total.ite {c : Prop} [Decidable c] {x y : Prog α} (hx : Total x) (hy : Total y) : Total (if c then x else y) := by
  split
  · exact hx
  · exact hy

end Total

theorem total_pullTcpData (sock : Sockfd) (size : Nat) (peek : Bool) : Total (pullTcpData sock size peek) := by
  unfold pullTcpData
  refine (Total.syscall _).bind fun received => ?_
  cases received with
  | none => exact .pure _
  | some b => exact .ite (.pure _) (.pure _)

theorem total_pushHeader (sock : Sockfd) (buf : Bytes) (timeout : Int) : Total (pushHeader sock buf timeout) := by
  unfold pushHeader
  refine (Total.syscall _).bind fun allocated => .ite (.pure _) ((Total.syscall _).bind fun polled => ?_)
  cases polled with
  | error => exact .pure _
  | timeout => exact .pure _
  | ready hit =>
    refine .ite ?_ (.pure _)
    unfold pushTcpData
    refine (Total.syscall _).bind fun sent => ?_
    cases sent with
    | none => exact .pure _
    | some n => exact .ite (.pure _) (.pure _)

theorem total_pullPacket (sock : Sockfd) (type : PacketType) (timeout : Int) : Total (pullPacket sock type timeout) := by
  unfold pullPacket
  refine .bind ?_ fun stat => .ite (.pure _) (total_pullTcpData sock _ false)
  unfold pullType
  refine (Total.syscall _).bind fun polled => ?_
  cases polled with
  | error => exact .pure _
  | timeout => exact .pure _
  | ready hit =>
    exact .ite (.pure _) ((total_pullTcpData sock 1 true).bind fun got => .ite (.pure _) (.ite (.pure _) (.pure _)))

theorem total_pullFlowHeader (sock : Sockfd) (args : FlowPacket) (timeout : Int) : Total (pullFlowHeader sock args timeout) := by
  unfold pullFlowHeader
  exact (total_pullPacket sock _ timeout).bind fun got => .ite (.pure _) (.pure _)

theorem total_pullRecvHeader (sock : Sockfd) (args : RecvPacket) (timeout : Int) : Total (pullRecvHeader sock args timeout) := by
  unfold pullRecvHeader
  exact (total_pullPacket sock _ timeout).bind fun got => .ite (.pure _) (.pure _)

theorem total_mfsync (stream : MFile) : Total (mfsync stream) := by
  unfold mfsync
  refine (Total.syscall _).bind fun page => ?_
  cases page with
  | none => exact .pure _
  | some page => exact .syscall _

/-! ## Chunks -/

/-- A chunk that is not empty has segments that are not. -/
theorem segsizeOf_pos {c : InitConfig} (h : (chunkContext c).chunkSize ≠ 0) : 0 < segsizeOf c := by
  have hcalc (n : Nat) (hn : n ≠ 0) : 0 < calcSegmentSize n := by
    unfold calcSegmentSize
    repeat' split
    all_goals omega
  unfold segsizeOf
  refine hcalc _ ?_
  by_cases hch : c.chsize = 0
  · rw [if_neg (fun h => h hch)]
    intro hzero
    refine h ?_
    simp only [chunkContext]
    split
    · exact hzero
    · rw [hch]
      rfl
  · rw [if_pos hch]
    exact fun hzero => hch (UInt16.toNat_inj.1 hzero)

section Rules

variable {α β : Type} {s : Proc}

theorem complete_bind {x : Prog α} {f : α → Prog β} (hx : (x s).Complete)
    (hf : (x s).After (fun _ s a => (f a s).Complete)) : ((x >>= f) s).Complete := hx.bind_after hf

theorem complete_syscall {c : Call} {f : c.Answer → Prog β} (h : ∀ r, (f r s).Complete) : ((syscall c >>= f) s).Complete := h

theorem complete_conf {f : InitConfig → Prog β} (h : (f s.conf s).Complete) : ((conf >>= f) s).Complete := h

theorem complete_setConf {g : InitConfig → InitConfig} {f : Unit → Prog β} (h : (f () { s with conf := g s.conf }).Complete) :
    ((setConf g >>= f) s).Complete := h

theorem complete_enter {p : Phase} {f : Unit → Prog β} (h : (f () { s with phase := p }).Complete) :
    ((enter p >>= f) s).Complete := h

theorem complete_pure {b : β} : ((pure b : Prog β) s).Complete := trivial

theorem complete_ite {c : Prop} [Decidable c] {x y : Prog β} (hx : c → (x s).Complete) (hy : ¬c → (y s).Complete) :
    ((if c then x else y) s).Complete := by
  by_cases hc : c
  · rw [if_pos hc]
    exact hx hc
  · rw [if_neg hc]
    exact hy hc

end Rules

theorem complete_pushSegments (sock : Sockfd) (timeout : Int) (rounds : Nat) : ∀ rsize s, rsize ≤ rounds →
    (rsize ≠ 0 → 0 < s.conf.segsize) → (pushSegments sock timeout rounds rsize s).Complete := by
  -- induction on the rounds: each takes at least one byte off `rsize`
  induction rounds with
  | zero =>
    intro rsize s hle _
    obtain rfl : rsize = 0 := Nat.le_zero.1 hle
    exact trivial
  | succ rounds ih =>
    intro rsize s hle hseg
    cases rsize with
    | zero => exact trivial
    | succ rsize =>
      have hpos := hseg (Nat.succ_ne_zero _)
      unfold pushSegments
      refine complete_conf (complete_setConf (complete_syscall fun polled => ?_))
      cases polled with
      | error => exact complete_pure
      | timeout => exact complete_pure
      | ready hit =>
        refine complete_ite (fun _ => complete_pure) fun _ => ?_
        unfold pushUdpData
        refine complete_bind (complete_syscall fun sent => ?_) (after_syscall fun sent => ?_)
        · cases sent with
          | none => exact complete_pure
          | some n => exact complete_ite (fun _ => complete_pure) (fun _ => complete_pure)
        · -- the rest starts from the same process with a smaller `rsize`
          have hrest (stat : Status) : ((if stat ≠ .success then pure stat else pushSegments sock timeout rounds
              (rsize + 1 - if s.conf.segsize ≤ rsize + 1 then s.conf.segsize else rsize + 1) : Prog Status)
              { s with conf := { s.conf with filec := { s.conf.filec with mfile := (mfread
                (if s.conf.segsize ≤ rsize + 1 then s.conf.segsize else rsize + 1) 1 s.conf.filec.mfile).2 } } }).Complete := by
            refine complete_ite (fun _ => complete_pure) fun _ => ih _ _ ?_ (fun _ => hpos)
            split <;> omega
          cases sent with
          | none => exact after_pure (hrest _)
          | some n => exact after_ite (fun _ => after_pure (hrest _)) (fun _ => after_pure (hrest _))

theorem complete_pullSegments (sock : Sockfd) (timeout : Int) (rounds : Nat) : ∀ rsize s, rsize ≤ rounds →
    (rsize ≠ 0 → 0 < s.conf.segsize) → (pullSegments sock timeout rounds rsize s).Complete := by
  -- induction on the rounds, as for the sender
  induction rounds with
  | zero =>
    intro rsize s hle _
    obtain rfl : rsize = 0 := Nat.le_zero.1 hle
    exact trivial
  | succ rounds ih =>
    intro rsize s hle hseg
    cases rsize with
    | zero => exact trivial
    | succ rsize =>
      have hpos := hseg (Nat.succ_ne_zero _)
      unfold pullSegments
      refine complete_conf (complete_syscall fun polled => ?_)
      cases polled with
      | error => exact complete_pure
      | timeout => exact complete_pure
      | ready hit =>
        refine complete_ite (fun _ => complete_pure) fun _ => ?_
        unfold pullUdpData
        refine complete_bind (complete_syscall fun received => ?_) (after_syscall fun received => ?_)
        · cases received with
          | none => exact complete_pure
          | some b => exact complete_ite (fun _ => complete_pure) (fun _ => complete_pure)
        · have hrest (got : Status × Bytes) : ((if got.1 ≠ .success then pure got.1 else do
              setMfile (mfwrite got.2 (if s.conf.segsize ≤ rsize + 1 then s.conf.segsize else rsize + 1) 1 s.conf.filec.mfile)
              pullSegments sock timeout rounds
                (rsize + 1 - if s.conf.segsize ≤ rsize + 1 then s.conf.segsize else rsize + 1) : Prog Status) s).Complete := by
            refine complete_ite (fun _ => complete_pure) fun _ => complete_setConf (ih _ _ ?_ (fun _ => hpos))
            split <;> omega
          cases received with
          | none => exact after_pure (hrest (_, _))
          | some b => exact after_ite (fun _ => after_pure (hrest (_, _))) (fun _ => after_pure (hrest (_, _)))

theorem complete_pushChunkData (sock : Sockfd) {chunk : ChunkContext} (timeout : Int) {s : Proc}
    (hseg : chunk.chunkSize ≠ 0 → 0 < s.conf.segsize) : (pushChunkData sock chunk timeout s).Complete := by
  unfold pushChunkData
  refine complete_conf (complete_syscall fun allocated => complete_ite (fun _ => complete_pure) fun _ => complete_setConf ?_)
  exact complete_ite (fun _ => complete_pure) fun _ => complete_pushSegments sock timeout _ _ _ (Nat.le_refl _) hseg

theorem complete_pullChunkData (sock : Sockfd) {chunk : ChunkContext} (timeout : Int) {s : Proc}
    (hseg : chunk.chunkSize ≠ 0 → 0 < s.conf.segsize) : (pullChunkData sock chunk timeout s).Complete := by
  -- after the socket option, which leaves the process as it is
  have hrest (s₁ : Proc) (hseg₁ : chunk.chunkSize ≠ 0 → 0 < s₁.conf.segsize) (stat : Status) :
      ((if stat ≠ .success then pure stat else do
        let stat ← pullSegments sock timeout chunk.chunkSize chunk.chunkSize
        if stat ≠ .success then return stat
        let c ← conf
        let synced ← mfsync c.filec.mfile
        if !synced then return .emfsync
        return stat : Prog Status) s₁).Complete := by
    refine complete_ite (fun _ => complete_pure) fun _ => ?_
    refine (complete_pullSegments sock timeout _ _ s₁ (Nat.le_refl _) hseg₁).bind fun s' stat' => ?_
    refine complete_ite (fun _ => complete_pure) fun _ => complete_conf ?_
    exact (total_mfsync _ _).bind fun _ _ => complete_ite (fun _ => complete_pure) (fun _ => complete_pure)
  unfold pullChunkData
  refine complete_conf (complete_syscall fun allocated => complete_ite (fun _ => complete_pure) fun _ => complete_setConf ?_)
  refine complete_ite (fun _ => complete_pure) fun _ => complete_bind ?_ ?_
  · unfold setSocketRcvlowsize
    refine complete_ite (fun _ => complete_syscall fun ok => ?_) (fun _ => complete_pure)
    exact complete_ite (fun _ => complete_pure) (fun _ => complete_pure)
  · unfold setSocketRcvlowsize
    refine after_ite (fun _ => after_syscall fun ok => ?_) (fun _ => after_pure (hrest _ (by exact hseg) _))
    exact after_ite (fun _ => after_pure (hrest _ (by exact hseg) _)) (fun _ => after_pure (hrest _ (by exact hseg) _))

end RufShare
