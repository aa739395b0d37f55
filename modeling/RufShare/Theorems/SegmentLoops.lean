import RufShare.Resumption.Monitor
import RufShare.Lemmas.Role
import RufShare.Theorems.Loops

/-!
# The segment loops come to an end

The loops of `push_chunk_data` and `pull_chunk_data` take `conf->segsize` bytes off a chunk in each round, so they end if it is not zero.
It is computed from `chsize`, or from `pchsize` when that is zero, and a chunk is as long as one of the two: when it is zero so is every
chunk.
-/

namespace RufShare

open Resumption LoopsAux

/-- The calls of a path are those of a number of rounds of a transfer loop, each of them whole and successful. -/
inductive WholeRounds (exchange : InitConfig → Nat → Prog Status) : Nat → List Event → Prop where
  | none : WholeRounds exchange 0 []
  | round {rounds trycount : Nat} {c : InitConfig} {s s' : Proc} {tr tr' : List Event} :
      Run (exchange c trycount s) tr s' .success → WholeRounds exchange rounds tr' → WholeRounds exchange (rounds + 1) (tr ++ tr')

/-- How many bytes a call takes off `rsize`: those of the datagram that is pushed or pulled. -/
def segmentBytes (e : Event) : Nat :=
  match e.call with
  | .send .dgram _ buf => buf.length
  | .recv .dgram _ size _ => size
  | _ => 0

/-- `conf->segsize` is what `start_pusher` and `start_puller` set it to. -/
def Segmented (c : InitConfig) : Prop := c.segsize = segsizeOf c

/-- An empty segment size leaves only empty chunks. -/
theorem chunkSize_of_segsize {c : InitConfig} (h : Segmented c) (hzero : c.segsize = 0) (seq : UInt32) :
    (chunkContext { c with seq := seq }).chunkSize = 0 := by
  rw [← Decidable.not_not (p := _ = 0)]
  intro hne
  have hpos : 0 < segsizeOf c := segsizeOf_pos (c := { c with seq := seq }) hne
  rw [← h, hzero] at hpos
  exact Nat.lt_irrefl 0 hpos

namespace SegmentLoopsAux

/-! ## The rounds of a transfer -/

theorem segmented_kept {c : InitConfig} {s : Proc} (h : Segmented c) (hkept : Kept c s) (seq : UInt32) :
    Segmented { s.conf with seq := seq } := by
  unfold Segmented
  rw [hkept.segsizeOf_next, ← h]
  exact hkept.segsize

section Loop

variable {exchange : InitConfig → Nat → Prog Status} {loop : Nat → Nat → Prog Status} (hloop : Loop exchange loop)
  (hexchange : Exchange exchange)
include hloop hexchange

/-- A loop is cut only between its rounds. -/
theorem wholeRounds_of_cut {rounds : Nat} : ∀ {trycount : Nat} {s s' : Proc} {tr : List Event}, Segmented s.conf →
    Path (loop rounds trycount s) tr (.cut s') → WholeRounds exchange rounds tr := by
  induction rounds with
  | zero =>
    intro trycount s s' tr _ hpath
    rw [hloop.zero] at hpath
    cases hpath
    exact .none
  | succ rounds ih =>
    intro trycount s s' tr hseg hpath
    by_cases hgo : s.conf.seq ≤ s.conf.chcount
    · obtain ⟨p, hround⟩ := hloop.round rounds trycount s hgo
      rw [hround] at hpath
      have hcomplete : (exchange s.conf trycount { s with phase := p }).Complete := by
        refine hexchange.complete _ _ _ (Decidable.or_iff_not_imp_left.2 fun hne => ?_)
        exact Nat.lt_of_lt_of_eq (segsizeOf_pos hne) hseg.symm
      obtain ⟨tr₁, tr₂, s₁, stat, rfl, hrun, hrest⟩ := hcomplete.cut_bind hpath
      have hkept := (Tree.after_iff.1 ((hexchange.keeps s.conf trycount s.conf).after (s := { s with phase := p }) (kept_self s))
        _ _ _ hrun).1
      by_cases hstat : stat = .success
      · subst hstat
        exact .round hrun (ih (s := { s₁ with conf := { s₁.conf with seq := s₁.conf.seq + 1 } }) (segmented_kept hseg hkept _) hrest)
      · rw [afterExchange_fail hstat] at hrest
        cases hrest
    · obtain ⟨p, hleave⟩ := hloop.leave rounds trycount s hgo
      rw [hleave] at hpath
      cases hpath

/-- The segment size stays what it was set to. -/
theorem within_segmented (rounds : Nat) : ∀ trycount, Within (fun s => Segmented s.conf) (fun s _ => Segmented s.conf)
    (loop rounds trycount) := by
  induction rounds with
  | zero =>
    intro trycount s _
    rw [hloop.zero]
    trivial
  | succ rounds ih =>
    intro trycount s hseg
    by_cases hgo : s.conf.seq ≤ s.conf.chcount
    · obtain ⟨p, hround⟩ := hloop.round rounds trycount s hgo
      rw [hround]
      have hkeeps := hexchange.keeps s.conf trycount s.conf { s with phase := p } (kept_self s)
      refine Tree.Always.bind (J := Kept s.conf) (hkeeps.mono ?_) ?_
      · exact fun s₁ _ hkept => segmented_kept hseg hkept s₁.conf.seq
      · intro s₁ stat hkept
        refine Within.ite (.pure _) ((Within.setConf ?_).bind fun _ => ih _) s₁ (segmented_kept hseg hkept s₁.conf.seq)
        exact fun s₂ h => h
    · obtain ⟨p, hleave⟩ := hloop.leave rounds trycount s hgo
      rw [hleave]
      exact hseg

end Loop

theorem segmented_setSegsize (s : Proc) : ∃ s', setSegsize s = .ret s' () ∧ Segmented s'.conf := ⟨_, rfl, rfl⟩

/-- What holds of both transfers, from where `conf->segsize` is set. -/
theorem segments_of_loop {exchange : InitConfig → Nat → Prog Status} {loop : Nat → Nat → Prog Status} (hloop : Loop exchange loop)
    (hexchange : Exchange exchange) (transfer : Prog Status) (rounds : Nat)
    (heq : ∀ s, Segmented s.conf → ∃ s', Segmented s'.conf ∧ transfer s = loop rounds s.conf.tfTrycount s') (s : Proc) :
    (∀ tr s', Path ((setSegsize >>= fun _ => transfer) s) tr (.cut s') → WholeRounds exchange rounds tr) ∧
    ∀ tr t, Path ((setSegsize >>= fun _ => transfer) s) tr t → ∀ e ∈ tr, Segmented e.state.conf := by
  obtain ⟨s₁, hset, hseg⟩ := segmented_setSegsize s
  obtain ⟨s₂, hseg₂, hloop₂⟩ := heq s₁ hseg
  have hstart : (setSegsize >>= fun _ => transfer) s = loop rounds s₁.conf.tfTrycount s₂ := by
    rw [Prog.bind_apply, hset, Tree.bind_ret, hloop₂]
  rw [hstart]
  exact ⟨fun tr s' => wholeRounds_of_cut hloop hexchange hseg₂,
    fun tr t => (within_segmented hloop hexchange rounds _ s₂ hseg₂).path⟩

/-! ## What a chunk takes -/

/-- The bytes of a chunk that are left, as a monitor: no datagram takes more. -/
def budget : Monitor Proc Call.Answer Nat where
  hold _ _ := True
  guar left s c := ∀ r, segmentBytes ⟨s, c, r⟩ ≤ left
  rely _ _ _ _ := True
  next left s c r := left - segmentBytes ⟨s, c, r⟩

/-- A call that moves no datagram takes nothing. -/
theorem sat_idle {β : Type} {left : Nat} {s : Proc} {c : Call} {f : c.Answer → Prog β} {Q : Nat → Proc → β → Prop}
    (hidle : ∀ r, segmentBytes ⟨s, c, r⟩ = 0) (h : ∀ r, (f r s).Sat budget left Q) : ((syscall c >>= f) s).Sat budget left Q := by
  refine ⟨trivial, fun r => ?_, fun r _ => ?_⟩
  · rw [hidle]
    exact Nat.zero_le _
  · have hnext : budget.next left s c r = left := by
      simp only [budget, hidle, Nat.sub_zero]
    rw [hnext]
    exact h r

theorem sat_takes {β : Type} {left n : Nat} {s : Proc} {c : Call} {f : c.Answer → Prog β} {Q : Nat → Proc → β → Prop}
    (hbytes : ∀ r, segmentBytes ⟨s, c, r⟩ = n) (hn : n ≤ left) (h : ∀ r, (f r s).Sat budget (left - n) Q) :
    ((syscall c >>= f) s).Sat budget left Q := by
  refine ⟨trivial, fun r => ?_, fun r _ => ?_⟩
  · rw [hbytes]
    exact hn
  · have hnext : budget.next left s c r = left - n := by
      simp only [budget, hbytes]
    rw [hnext]
    exact h r

/-- A segment buffer has the length of the segment. -/
theorem length_fillSegbuf (segsize : Nat) (stream : MFile) : (fillSegbuf segsize (mfread segsize 1 stream).1).length = segsize := by
  have hle : (mfread segsize 1 stream).1.length ≤ segsize := by
    cases h : stream.isOpen with
    | false => simp [mfread, h]
    | true =>
      have hspan : stream.span segsize 1 ≤ segsize := by
        simp only [MFile.span, Nat.mul_one]
        have := Nat.mod_le segsize (2 ^ 64)
        split <;> omega
      simp only [mfread, h, Bool.not_true, Bool.false_eq_true, if_false]
      exact Nat.le_trans (List.length_take_le _ _) hspan
  rw [fillSegbuf, List.length_append, List.length_replicate]
  omega

theorem sat_pushSegments (sock : Sockfd) (timeout : Int) (rounds : Nat) : ∀ rsize s,
    (pushSegments sock timeout rounds rsize s).Sat budget rsize (fun _ _ _ => True) := by
  -- induction on the rounds: what a datagram takes is taken off `rsize`
  induction rounds with
  | zero =>
    intro rsize s
    cases rsize with
    | zero => exact sat_pure trivial
    | succ rsize => exact trivial
  | succ rounds ih =>
    intro rsize s
    cases rsize with
    | zero => exact sat_pure trivial
    | succ rsize =>
      unfold pushSegments
      refine sat_conf (sat_setConf (sat_idle (fun _ => rfl) fun polled => ?_))
      cases polled with
      | error => exact sat_pure trivial
      | timeout => exact sat_pure trivial
      | ready hit =>
        refine sat_ite (fun _ => sat_pure trivial) fun _ => ?_
        unfold pushUdpData
        refine sat_bind (sat_takes (n := if s.conf.segsize ≤ rsize + 1 then s.conf.segsize else rsize + 1)
          (fun _ => length_fillSegbuf _ _) (by split <;> omega) fun sent => ?_)
        cases sent with
        | none => exact sat_pure (sat_ite (fun _ => sat_pure trivial) fun _ => ih _ _)
        | some n =>
          refine sat_ite (fun _ => sat_pure (sat_ite (fun _ => sat_pure trivial) fun _ => ih _ _)) fun _ => ?_
          exact sat_pure (sat_ite (fun _ => sat_pure trivial) fun _ => ih _ _)

theorem sat_pullSegments (sock : Sockfd) (timeout : Int) (rounds : Nat) : ∀ rsize s,
    (pullSegments sock timeout rounds rsize s).Sat budget rsize (fun _ _ _ => True) := by
  -- induction on the rounds, as for the sender
  induction rounds with
  | zero =>
    intro rsize s
    cases rsize with
    | zero => exact sat_pure trivial
    | succ rsize => exact trivial
  | succ rounds ih =>
    intro rsize s
    cases rsize with
    | zero => exact sat_pure trivial
    | succ rsize =>
      unfold pullSegments
      refine sat_conf (sat_idle (fun _ => rfl) fun polled => ?_)
      cases polled with
      | error => exact sat_pure trivial
      | timeout => exact sat_pure trivial
      | ready hit =>
        refine sat_ite (fun _ => sat_pure trivial) fun _ => ?_
        unfold pullUdpData
        refine sat_bind (sat_takes (n := if s.conf.segsize ≤ rsize + 1 then s.conf.segsize else rsize + 1)
          (fun _ => rfl) (by split <;> omega) fun received => ?_)
        cases received with
        | none => exact sat_pure (sat_ite (fun _ => sat_pure trivial) fun _ => sat_setConf (ih _ _))
        | some b =>
          refine sat_ite (fun _ => sat_pure (sat_ite (fun _ => sat_pure trivial) fun _ => sat_setConf (ih _ _))) fun _ => ?_
          exact sat_pure (sat_ite (fun _ => sat_pure trivial) fun _ => sat_setConf (ih _ _))

theorem sat_pushChunkData (sock : Sockfd) (chunk : ChunkContext) (timeout : Int) (s : Proc) :
    (pushChunkData sock chunk timeout s).Sat budget chunk.chunkSize (fun _ _ _ => True) := by
  unfold pushChunkData
  refine sat_conf (sat_idle (fun _ => rfl) fun allocated => sat_ite (fun _ => sat_pure trivial) fun _ => sat_setConf ?_)
  exact sat_ite (fun _ => sat_pure trivial) fun _ => sat_pushSegments _ _ _ _ _

theorem sat_pullChunkData (sock : Sockfd) (chunk : ChunkContext) (timeout : Int) (s : Proc) :
    (pullChunkData sock chunk timeout s).Sat budget chunk.chunkSize (fun _ _ _ => True) := by
  -- after the socket option
  have hrest (s₁ : Proc) (stat : Status) : ((if stat ≠ .success then pure stat else do
      let stat ← pullSegments sock timeout chunk.chunkSize chunk.chunkSize
      if stat ≠ .success then return stat
      let c ← conf
      let synced ← mfsync c.filec.mfile
      if !synced then return .emfsync
      return stat : Prog Status) s₁).Sat budget chunk.chunkSize (fun _ _ _ => True) := by
    refine sat_ite (fun _ => sat_pure trivial) fun _ => sat_bind ((sat_pullSegments _ _ _ _ _).mono fun left s₂ stat _ => ?_)
    refine sat_ite (fun _ => sat_pure trivial) fun _ => sat_conf (sat_bind ?_)
    have hend (ok : Bool) : ((if !ok then pure .emfsync else pure stat : Prog Status) s₂).Sat budget left (fun _ _ _ => True) :=
      sat_ite (fun _ => sat_pure trivial) (fun _ => sat_pure trivial)
    unfold mfsync
    refine sat_idle (fun _ => rfl) fun pagesize => ?_
    cases pagesize with
    | none => exact hend _
    | some pagesize => exact sat_idle (f := fun ok => pure ok) (fun _ => rfl) fun ok => hend ok
  unfold pullChunkData setSocketRcvlowsize
  refine sat_conf (sat_idle (fun _ => rfl) fun allocated => sat_ite (fun _ => sat_pure trivial) fun _ => sat_setConf ?_)
  refine sat_ite (fun _ => sat_pure trivial) fun _ => sat_bind (sat_ite (fun _ => ?_) fun _ => sat_pure (hrest _ _))
  exact sat_idle (fun _ => rfl) fun ok => sat_ite (fun _ => sat_pure (hrest _ _)) (fun _ => sat_pure (hrest _ _))

/-- The datagrams of a path take no more than there is. -/
theorem sum_le_of_sat {α : Type} {t t' : Tree α} {n : Nat} {tr : List Event} (h : t.Sat budget n (fun _ _ _ => True))
    (hp : Path t tr t') : (tr.map segmentBytes).sum ≤ n := by
  have hhistory := h.history (I := fun left tr => (tr.map segmentBytes).sum + left = n) (P := fun _ => True) ?_
    (show (([] : List Event).map segmentBytes).sum + n = n from Nat.zero_add n) hp (fun _ _ => trivial)
  · obtain ⟨left, hsum, -⟩ := hhistory
    rw [List.nil_append] at hsum
    omega
  · intro left tr s c r hsum _ hguar _
    have hle := hguar r
    refine ⟨trivial, ?_⟩
    simp only [budget, List.map_append, List.sum_append, List.map_singleton, List.sum_singleton]
    omega

end SegmentLoopsAux

open SegmentLoopsAux

/-- The segment loops come to an end. From where `start_pusher` and `start_puller` set `conf->segsize`, whatever the peer offers, the
transfers are cut only when they have made all the rounds of their outer loop; `conf->segsize` stays what it was set to at every call,
and where it is zero so is every chunk of the file. With it the functions that push and pull the chunk of any `conf->seq` return.
The datagrams of a chunk take no more than its length together, so `rsize` never goes below zero. -/
theorem segment_loops_end (Γ : Libcrc) (rounds : Nat) (s : Proc) :
    (∀ tr s', Path ((setSegsize >>= fun _ => pushTransfer Γ rounds) s) tr (.cut s') → WholeRounds (pushExchange Γ) rounds tr) ∧
    (∀ tr s', Path ((setSegsize >>= fun _ => pullTransfer Γ rounds) s) tr (.cut s') → WholeRounds (pullExchange Γ) rounds tr) ∧
    (∀ tr t, Path ((setSegsize >>= fun _ => pushTransfer Γ rounds) s) tr t ∨
        Path ((setSegsize >>= fun _ => pullTransfer Γ rounds) s) tr t →
      ∀ e ∈ tr, Segmented e.state.conf ∧
        (e.state.conf.segsize = 0 → ∀ seq, (chunkContext { e.state.conf with seq := seq }).chunkSize = 0)) ∧
    (∀ sock timeout, Segmented s.conf → (pushChunkData sock (chunkContext s.conf) timeout s).Complete ∧
      (pullChunkData sock (chunkContext s.conf) timeout s).Complete) ∧
    ∀ sock chunk timeout tr t, Path (pushChunkData sock chunk timeout s) tr t ∨ Path (pullChunkData sock chunk timeout s) tr t →
      (tr.map segmentBytes).sum ≤ chunk.chunkSize := by
  obtain ⟨hpush, hpushSeg⟩ := segments_of_loop (loop_push Γ) (exchange_push Γ) (pushTransfer Γ rounds) rounds
    (fun s hseg => ⟨{ s with phase := .flow }, hseg, pushTransfer_eq Γ rounds s⟩) s
  obtain ⟨hpull, hpullSeg⟩ := segments_of_loop (loop_pull Γ) (exchange_pull Γ) (pullTransfer Γ rounds) rounds
    (fun s hseg => ⟨s, hseg, pullTransfer_eq Γ rounds s⟩) s
  refine ⟨hpush, hpull, ?_, ?_, ?_⟩
  · intro tr t hpath e he
    have hseg : Segmented e.state.conf := by
      rcases hpath with hpath | hpath
      · exact hpushSeg tr t hpath e he
      · exact hpullSeg tr t hpath e he
    exact ⟨hseg, chunkSize_of_segsize hseg⟩
  · intro sock timeout hseg
    have hpos (hne : (chunkContext s.conf).chunkSize ≠ 0) : 0 < s.conf.segsize := Nat.lt_of_lt_of_eq (segsizeOf_pos hne) hseg.symm
    exact ⟨complete_pushChunkData sock timeout hpos, complete_pullChunkData sock timeout hpos⟩
  · intro sock chunk timeout tr t hpath
    rcases hpath with hpath | hpath
    · exact sum_le_of_sat (sat_pushChunkData sock chunk timeout s) hpath
    · exact sum_le_of_sat (sat_pullChunkData sock chunk timeout s) hpath

end RufShare
