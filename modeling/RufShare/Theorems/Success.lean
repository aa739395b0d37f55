import RufShare.Parties
import RufShare.Theorems.Budget
import RufShare.Theorems.Handles
import RufShare.Theorems.Tiling

/-!
# The files that can be transferred

A chunk can be sent and received only when the cursor of the file can be set to where it starts. The last chunk of a file whose size is
a multiple of the chunk size is empty and starts at the end of the file, where `mfseek` does not go: no answers of the system and of the
peer bring such a transfer to its end.
-/

namespace RufShare

open Resumption

/-- Some answers of the system and of the peer bring the transfer to `SUCCESS`. -/
def CanSucceed (transfer : Nat → Prog Status) (s : Proc) : Prop := ∃ rounds tr s', Run (transfer rounds s) tr s' .success

/-- The files whose chunks can all be sought and counted. From `2 ^ 32` bytes on the start of an empty last chunk wraps, and can be
sought as well. -/
def Transferable (fileSize chsize : Nat) : Prop := (chsize ∣ fileSize → 2 ^ 32 ≤ fileSize) ∧ fileSize / chsize ≠ 2 ^ 32 - 2

namespace SuccessAux

open LoopsAux BudgetAux

/-! ## Where the cursor can be set -/

theorem seekableTo_iff {κ : InitConfig} {s : Proc} (h : Held κ s) (seq : UInt32) :
    SeekableTo { s.conf with seq := seq } ↔ SeekableTo { κ with seq := seq } := by
  have hstart : (chunkContext { s.conf with seq := seq }).startPos = (chunkContext { κ with seq := seq }).startPos := by
    have hkept := h.1
    unfold Kept at hkept
    rw [← hkept]
    rfl
  unfold SeekableTo
  rw [hstart]
  change (mfseek s.conf.filec.mfile _).1 = _ ↔ (mfseek κ.filec.mfile _).1 = _
  rw [mfseek_of_handle h.2]

/-- The cursor of a file that is not empty can be set to the positions inside it. -/
theorem mfseek_eq_iff {stream : MFile} (hopen : stream.isOpen = true) (hpos : 0 < stream.size) (pos : Nat) :
    (mfseek stream pos).1 = pos ↔ pos < stream.size := by
  unfold mfseek
  by_cases hlt : pos < stream.size
  · simp [hopen, hlt]
  · simp only [hopen, hlt, decide_false, Bool.and_false, Bool.false_eq_true, if_false, iff_false]
    omega

/-! ## A chunk that cannot be sought -/

/-- What follows the setting of the cursor to a chunk is not reached where it cannot be set. -/
theorem after_unsought {chunk : ChunkContext} {rest : InitConfig → Prog Status} {s : Proc}
    (hseek : (mfseek s.conf.filec.mfile chunk.startPos).1 ≠ chunk.startPos) : ((do
      let c ← conf
      let allocated : Bool ← syscall (.calloc c.segsize 1)
      if !allocated then return .emalloc
      let (pos, stream) := mfseek c.filec.mfile chunk.startPos
      setMfile stream
      if chunk.startPos ≠ pos then return .emfseek
      rest c : Prog Status) s).After (fun _ _ stat => stat ≠ .success) := by
  refine after_conf (after_syscall fun allocated => after_ite (fun _ => after_pure nofun) fun _ => ?_)
  generalize hsought : mfseek s.conf.filec.mfile chunk.startPos = sought at hseek ⊢
  exact after_setConf (after_ite (fun _ => after_pure nofun) fun h => absurd (Decidable.not_not.1 h).symm hseek)

theorem after_pushChunkData_unsought {sock : Sockfd} {chunk : ChunkContext} {timeout : Int} {s : Proc}
    (hseek : (mfseek s.conf.filec.mfile chunk.startPos).1 ≠ chunk.startPos) :
    (pushChunkData sock chunk timeout s).After (fun _ _ stat => stat ≠ .success) := after_unsought hseek

theorem after_pullChunkData_unsought {sock : Sockfd} {chunk : ChunkContext} {timeout : Int} {s : Proc}
    (hseek : (mfseek s.conf.filec.mfile chunk.startPos).1 ≠ chunk.startPos) :
    (pullChunkData sock chunk timeout s).After (fun _ _ stat => stat ≠ .success) := after_unsought hseek

section

variable {s : Proc}

/-- A try that fails ends the tries. -/
theorem after_try {x : Prog Status} {f : Status → Prog (Status × Nat)} {left : Nat} (hx : (x s).After (fun _ _ stat => stat ≠ .success)) :
    ((x >>= fun stat => if stat ≠ .success then pure (stat, left) else f stat) s).After
      (fun _ _ got => got.1 = .success → got.2 = 0) :=
  after_bind_of hx fun _ _ _ hstat => after_ite (fun _ => after_pure fun h => absurd h hstat) fun h => absurd hstat h

/-- Tries that succeed with none left are a failure. -/
theorem after_tries {P : Prop} {x : Prog (Status × Nat)} {f : Prog Status} {stat : Status} (hstat : stat ≠ .success)
    (hx : (x s).After (fun _ _ got => got.1 = .success → got.2 = 0)) :
    ((x >>= fun got => if got.1 ≠ .success then pure got.1 else if got.2 = 0 then pure stat else f) s).After
      (fun _ _ stat => stat = .success → P) := by
  refine after_bind_of hx fun _ _ got hgot => after_ite (fun h => after_pure fun h' => absurd h' h) fun h => ?_
  exact after_ite (fun _ => after_pure fun h' => absurd h' hstat) fun h' => absurd (hgot (Decidable.not_not.1 h)) h'

end

/-- The tries of a chunk the cursor cannot be set to end at the first one. -/
theorem after_pushDataLoop_unsought {chcon : ChunkContext} (tries : Nat) {s : Proc}
    (hseek : (mfseek s.conf.filec.mfile chcon.startPos).1 ≠ chcon.startPos) :
    (pushDataLoop chcon tries s).After (fun _ _ got => got.1 = .success → got.2 = 0) := by
  cases tries with
  | zero => exact fun _ => rfl
  | succ tries => exact after_enter (after_conf (after_try (after_pushChunkData_unsought hseek)))

theorem after_pullDataLoop_unsought {Γ : Libcrc} {flow : FlowPacket} {chcon : ChunkContext} (tries : Nat) {s : Proc}
    (hseek : (mfseek s.conf.filec.mfile chcon.startPos).1 ≠ chcon.startPos) :
    (pullDataLoop Γ flow chcon tries s).After (fun _ _ got => got.1 = .success → got.2 = 0) := by
  cases tries with
  | zero => exact fun _ => rfl
  | succ tries => exact after_enter (after_conf (after_try (after_pullChunkData_unsought hseek)))

/-! ## The loops -/

/-- What is shown of an exchange: it keeps what `Held` says, and succeeds only on a chunk the cursor can be set to, where it can. -/
structure Seeking (exchange : InitConfig → Nat → Prog Status) : Prop where
  held : ∀ κ c trycount, Within (Held κ) (fun _ _ => True) (exchange c trycount)
  sought : ∀ trycount (s : Proc) p, (exchange s.conf trycount { s with phase := p }).After (fun _ _ stat =>
    stat = .success → SeekableTo s.conf)
  may : ∀ trycount (s : Proc) p, trycount ≠ 0 → s.conf.tfTrycount ≠ 0 → SeekableTo s.conf → s.conf.segsize = segsizeOf s.conf →
    (exchange s.conf trycount { s with phase := p }).May (fun _ _ stat => stat = .success)

theorem seeking_push (Γ : Libcrc) : Seeking (pushExchange Γ) where
  held := by
    intro κ c trycount
    unfold pushExchange
    refine (within_pushFlowLoop (fun _ _ _ _ => trivial) (fun _ h => h) _ _).bind fun got => .ite (.pure _) (.ite (.pure _) ?_)
    refine (within_pushDataLoop (fun _ _ _ _ => trivial) (fun _ _ hs h => ⟨h.1, hs.trans h.2⟩) (fun _ h => h) _ _).bind fun got => ?_
    exact .ite (.pure _) (.ite (.pure _) (.pure _))
  sought := by
    intro trycount s p
    by_cases hseek : SeekableTo s.conf
    · exact Tree.after_iff.2 fun _ _ _ _ _ => hseek
    unfold pushExchange
    have hflow : Within (Held s.conf) (fun _ _ => True) (pushFlowLoop (packFlowPacket
        (UInt16.ofNat (chunkContext s.conf).chunkSize) s.conf.seq (calcChunkCrc32 Γ s.conf.filec (chunkContext s.conf))) trycount) :=
      within_pushFlowLoop (fun _ _ _ _ => trivial) (fun _ h => h) _ _
    refine after_bind_of (hflow.after ⟨rfl, rfl⟩) fun tr s₁ got hheld => ?_
    refine after_ite (fun h => after_pure fun h' => absurd h' h) fun _ => after_ite (fun _ => after_pure nofun) fun _ => ?_
    have hunsought : (mfseek s₁.conf.filec.mfile (chunkContext s.conf).startPos).1 ≠ (chunkContext s.conf).startPos := by
      rw [mfseek_of_handle hheld.1.2]
      exact hseek
    exact after_tries Status.noConfusion (after_pushDataLoop_unsought _ hunsought)
  may := by
    intro trycount s p htries htf hseek hseg
    obtain ⟨tr, s', stat, hrun, hstat, -⟩ := (may_pushExchange Γ p htries htf hseek hseg).run
    exact .of_run hrun hstat

theorem seeking_pull (Γ : Libcrc) : Seeking (pullExchange Γ) where
  held := by
    intro κ c trycount
    unfold pullExchange
    refine (within_pullFlowHeader (fun _ _ _ _ => trivial) _ _ _).bind fun got => .ite (.pure _) (.ite ?_ ?_)
    · refine (within_pushHeader (fun _ _ _ _ => trivial) _ _ _).bind fun stat => .ite (.pure _) ?_
      refine (within_pullDataLoop (fun _ _ _ _ => trivial) (fun _ _ hs h => ⟨h.1, hs.trans h.2⟩) (fun _ h => h) Γ _ _ _).bind fun got => ?_
      exact .ite (.pure _) (.ite (.pure _) (.pure _))
    · exact (within_pushHeader (fun _ _ _ _ => trivial) _ _ _).bind fun _ => .pure _
  sought := by
    intro trycount s p
    by_cases hseek : SeekableTo s.conf
    · exact Tree.after_iff.2 fun _ _ _ _ _ => hseek
    unfold pullExchange
    have hpull : Within (Held s.conf) (fun _ _ => True) (pullFlowHeader s.conf.connSock emptyFlow s.conf.tftFlow) :=
      within_pullFlowHeader (fun _ _ _ _ => trivial) _ _ _
    refine after_bind_of (hpull.after ⟨rfl, rfl⟩) fun tr s₁ got hheld => ?_
    refine after_ite (fun h => after_pure fun h' => absurd h' h) fun _ => after_ite (fun _ => ?_) fun _ => ?_
    · have hpush : Within (Held s.conf) (fun _ _ => True) (pushRecvHeader s.conf.connSock (packRecvPacket 1 0 s.conf.seq) s.conf.tftRecv) :=
        within_pushHeader (fun _ _ _ _ => trivial) _ _ _
      refine after_bind_of (hpush.after hheld.1) fun tr s₂ stat hheld => ?_
      refine after_ite (fun h => after_pure fun h' => absurd h' h) fun _ => ?_
      have hunsought : (mfseek s₂.conf.filec.mfile (chunkContext s.conf).startPos).1 ≠ (chunkContext s.conf).startPos := by
        rw [mfseek_of_handle hheld.1.2]
        exact hseek
      exact after_tries Status.noConfusion (after_pullDataLoop_unsought _ hunsought)
    · have hpush : Within (Held s.conf) (fun _ _ => True) (pushRecvHeader s.conf.connSock (packRecvPacket 0 0 s.conf.seq) s.conf.tftRecv) :=
        within_pushHeader (fun _ _ _ _ => trivial) _ _ _
      exact after_bind_of (hpush.after hheld.1) fun tr s₂ stat _ => after_pure nofun
  may := by
    intro trycount s p htries _ hseek hseg
    obtain ⟨tr, s', stat, hrun, hstat, -⟩ := (may_pullExchange Γ p htries hseek hseg).run
    exact .of_run hrun hstat

section Loop

variable {exchange : InitConfig → Nat → Prog Status} {loop : Nat → Nat → Prog Status} (hloop : Loop exchange loop)
  (hseeking : Seeking exchange)
include hloop hseeking

/-- A loop that succeeds has set the cursor to every chunk it had left. -/
theorem sought_of_loop {n : Nat} (hn : n + 1 < 2 ^ 32) (rounds : Nat) : ∀ trycount m (s : Proc), s.conf.chcount.toNat = n →
    s.conf.seq.toNat = m + 1 → (loop rounds trycount s).After (fun _ _ stat => stat = .success →
      ∀ seq : UInt32, m < seq.toNat → seq ≤ s.conf.chcount → SeekableTo { s.conf with seq := seq }) := by
  -- induction on the rounds: each succeeds on the chunk it is at, and leaves the size of the file
  induction rounds with
  | zero =>
    intro trycount m s _ _
    rw [hloop.zero]
    trivial
  | succ rounds ih =>
    intro trycount m s hcount hseq
    by_cases hgo : s.conf.seq ≤ s.conf.chcount
    · obtain ⟨p, hround⟩ := hloop.round rounds trycount s hgo
      rw [hround]
      have hheld := (hseeking.held s.conf s.conf trycount).after (s := { s with phase := p }) ⟨rfl, rfl⟩
      refine after_bind_of (hheld.and (hseeking.sought trycount s p)) ?_
      rintro tr s₁ stat ⟨⟨hheld, -⟩, hsought⟩
      refine after_ite (fun hne => after_pure fun h => absurd h hne) fun hstat => after_setConf ?_
      have hnext := seq_next hheld.1 hgo (by rw [hcount]; exact hn)
      refine (ih _ (m + 1) { s₁ with conf := { s₁.conf with seq := s₁.conf.seq + 1 } } ?_ ?_).mono ?_
      · rw [← hcount]
        exact congrArg UInt32.toNat hheld.1.chcount
      · rw [← hseq]
        exact hnext
      intro _ _ _ hrest hsucc seq hlt hle
      by_cases heq : seq = s.conf.seq
      · rw [heq]
        exact hsought (Decidable.not_not.1 hstat)
      · have hlt' : m + 1 < seq.toNat := by
          have hne : seq.toNat ≠ s.conf.seq.toNat := fun h => heq (UInt32.toNat_inj.1 h)
          omega
        have hle' : seq ≤ s₁.conf.chcount := by
          rw [hheld.1.chcount]
          exact hle
        exact (seekableTo_iff hheld seq).1 (hrest hsucc seq hlt' hle')
    · obtain ⟨p, hleave⟩ := hloop.leave rounds trycount s hgo
      rw [hleave]
      refine after_pure fun _ seq hlt hle => absurd (UInt32.le_iff_toNat_le.2 ?_) hgo
      have hle := UInt32.le_iff_toNat_le.1 hle
      omega

/-- With `2 ^ 32 - 1` chunks no round is the last: the loop does not come to succeed. -/
theorem not_success_of_all (rounds : Nat) : ∀ trycount (s : Proc), s.conf.chcount = 4294967295 →
    (loop rounds trycount s).After (fun _ _ stat => stat ≠ .success) := by
  induction rounds with
  | zero =>
    intro trycount s _
    rw [hloop.zero]
    trivial
  | succ rounds ih =>
    intro trycount s hcount
    have hgo : s.conf.seq ≤ s.conf.chcount := by
      rw [hcount]
      exact UInt32.le_iff_toNat_le.2 (Nat.le_of_lt_succ s.conf.seq.toNat_lt)
    obtain ⟨p, hround⟩ := hloop.round rounds trycount s hgo
    rw [hround]
    have hheld := (hseeking.held s.conf s.conf trycount).after (s := { s with phase := p }) ⟨rfl, rfl⟩
    refine after_bind_of hheld ?_
    rintro tr s₁ stat ⟨hheld, -⟩
    refine after_ite (fun hne => after_pure hne) fun hstat => after_setConf (ih _ _ ?_)
    exact hheld.1.chcount.trans hcount

/-- A loop that can set the cursor to every chunk may succeed: one round for each chunk, and one to leave. -/
theorem may_loop {n : Nat} (hn : n + 1 < 2 ^ 32) (left : Nat) : ∀ trycount (s : Proc), trycount ≠ 0 → s.conf.tfTrycount ≠ 0 →
    s.conf.chcount.toNat = n → 1 ≤ s.conf.seq → s.conf.seq.toNat + left = n + 1 → s.conf.segsize = segsizeOf s.conf → Seekable s.conf →
      (loop (left + 1) trycount s).May (fun _ _ stat => stat = .success) := by
  -- induction on the chunks that are left
  induction left with
  | zero =>
    intro trycount s _ _ hcount _ hseq _ _
    have hgo : ¬s.conf.seq ≤ s.conf.chcount := by
      rw [UInt32.le_iff_toNat_le]
      omega
    obtain ⟨p, hleave⟩ := hloop.leave 0 trycount s hgo
    rw [hleave]
    exact rfl
  | succ left ih =>
    intro trycount s htries htf hcount hone hseq hseg hseek
    have hgo : s.conf.seq ≤ s.conf.chcount := by
      rw [UInt32.le_iff_toNat_le]
      omega
    obtain ⟨p, hround⟩ := hloop.round (left + 1) trycount s hgo
    rw [hround]
    have hheld := (hseeking.held s.conf s.conf trycount).after (s := { s with phase := p }) ⟨rfl, rfl⟩
    obtain ⟨tr, s₁, stat, hrun, rfl, hheld, -⟩ := ((hseeking.may trycount s p htries htf (hseek _ hone hgo) hseg).and_after hheld).run
    refine may_bind (.of_run hrun (may_ite_neg (fun h => h rfl) (may_setConf ?_)))
    have hnext := seq_next hheld.1 hgo (by rw [hcount]; exact hn)
    have hkept := hheld.1
    unfold Kept at hkept
    refine ih s.conf.tfTrycount { s₁ with conf := { s₁.conf with seq := s₁.conf.seq + 1 } } htf ?_ ?_ ?_ ?_ ?_ ?_
    · change s₁.conf.tfTrycount ≠ 0
      rw [← hkept] at htf
      exact htf
    · rw [← hcount]
      exact congrArg UInt32.toNat hheld.1.chcount
    · change 1 ≤ s₁.conf.seq + 1
      rw [UInt32.le_iff_toNat_le, hnext]
      exact Nat.le_add_left 1 _
    · change (s₁.conf.seq + 1).toNat + left = n + 1
      omega
    · rw [hheld.1.segsizeOf_next, ← hseg]
      exact hheld.1.segsize
    · exact seekable_next hseek hheld _

/-- A transfer can succeed exactly when the cursor can be set to every chunk and the number of chunks can be passed. -/
theorem canSucceed_iff {transfer : Nat → Prog Status} {s : Proc} {p : Phase}
    (heq : ∀ rounds, transfer rounds (beginTransfer s) = loop rounds s.conf.tfTrycount { beginTransfer s with phase := p })
    (htries : s.conf.tfTrycount ≠ 0) :
    CanSucceed transfer (beginTransfer s) ↔ Seekable s.conf ∧ s.conf.chcount ≠ 4294967295 := by
  have hpassed (h : s.conf.chcount ≠ 4294967295) : s.conf.chcount.toNat + 1 < 2 ^ 32 := by
    have hlt := s.conf.chcount.toNat_lt
    have hne : s.conf.chcount.toNat ≠ 4294967295 := fun h' => h (UInt32.toNat_inj.1 h')
    omega
  constructor
  · rintro ⟨rounds, tr, s', hrun⟩
    rw [heq] at hrun
    have hcount : s.conf.chcount ≠ 4294967295 := fun hall =>
      Tree.after_iff.1 (not_success_of_all hloop hseeking rounds _ { beginTransfer s with phase := p } hall) _ _ _ hrun rfl
    refine ⟨fun seq hone hle => ?_, hcount⟩
    exact Tree.after_iff.1 (sought_of_loop hloop hseeking (hpassed hcount) rounds _ 0 { beginTransfer s with phase := p } rfl rfl)
      _ _ _ hrun rfl seq (UInt32.le_iff_toNat_le.1 hone) hle
  · rintro ⟨hseek, hcount⟩
    obtain ⟨tr, s', stat, hrun, rfl⟩ := (may_loop hloop hseeking (hpassed hcount) s.conf.chcount.toNat s.conf.tfTrycount
      { beginTransfer s with phase := p } htries htries rfl (UInt32.le_refl 1) (Nat.add_comm 1 _) rfl hseek).run
    exact ⟨_, tr, s', (heq _).symm ▸ hrun⟩

end Loop

/-! ## The numbers of a file -/

/-- The cursor can be set to every chunk of a file unless the last one is empty, or starts at a position that has wrapped. -/
theorem seekable_iff {c : InitConfig} {fileSize : Nat} (hopen : c.filec.mfile.isOpen = true) (hsize : c.filec.mfile.size = fileSize)
    (hpos : 1 ≤ fileSize) (hcount : c.chcount.toNat = fileSize / c.chsize.toNat + 1) :
    Seekable c ↔ (c.chsize.toNat ∣ fileSize → 2 ^ 32 ≤ fileSize) := by
  have hseek (seq : UInt32) (hone : 1 ≤ seq) : SeekableTo { c with seq := seq } ↔ (seq.toNat - 1) * c.chsize.toNat % 2 ^ 32 < fileSize := by
    have hstart : (chunkContext { c with seq := seq }).startPos = (seq.toNat - 1) * c.chsize.toNat % 2 ^ 32 := by
      simp only [chunkContext, UInt32.toNat_mul, UInt32.toNat_sub_of_le _ _ hone, UInt16.toNat_toUInt32, UInt32.toNat_one]
    unfold SeekableTo
    rw [mfseek_eq_iff hopen (by rw [hsize]; exact hpos), hstart, hsize]
  constructor
  · intro h hdvd
    refine Nat.le_of_not_lt fun hlt => ?_
    have hone : 1 ≤ c.chcount := by
      rw [UInt32.le_iff_toNat_le, hcount]
      exact Nat.le_add_left 1 _
    have hlast := (hseek _ hone).1 (h c.chcount hone (UInt32.le_refl _))
    rw [hcount, Nat.add_sub_cancel, Nat.div_mul_cancel hdvd, Nat.mod_eq_of_lt hlt] at hlast
    exact Nat.lt_irrefl _ hlast
  · intro h seq hone hle
    refine (hseek seq hone).2 ?_
    by_cases hlarge : 2 ^ 32 ≤ fileSize
    · exact Nat.lt_of_lt_of_le (Nat.mod_lt _ (by decide)) hlarge
    · have hle := UInt32.le_iff_toNat_le.1 hle
      have hmul : (seq.toNat - 1) * c.chsize.toNat ≤ fileSize / c.chsize.toNat * c.chsize.toNat :=
        Nat.mul_le_mul_right _ (Nat.sub_le_iff_le_add.2 (hcount ▸ hle))
      refine Nat.lt_of_le_of_lt (Nat.mod_le _ _) (Nat.lt_of_le_of_lt hmul (Nat.lt_of_le_of_ne (Nat.div_mul_le_self _ _) fun heq => ?_))
      exact hlarge (h ⟨_, heq.symm.trans (Nat.mul_comm _ _)⟩)

/-- What `calc_chunk_count` counts. -/
theorem chcount_eq {c : InitConfig} {fileSize : Nat} (hcount : c.chcount = (calcChunkCount fileSize c.chsize.toNat).1)
    (hlt : fileSize / c.chsize.toNat < 2 ^ 32 - 1) : c.chcount.toNat = fileSize / c.chsize.toNat + 1 := by
  rw [hcount, TilingAux.toNat_count, Nat.mod_eq_of_lt (Nat.lt_of_lt_of_le hlt (by decide))]
  exact Nat.mod_eq_of_lt (Nat.add_lt_of_lt_sub hlt)

/-- Every chunk can be sought and the counter can pass them all exactly when the file is transferable. -/
theorem transferable_iff {c : InitConfig} {fileSize : Nat} (hopen : c.filec.mfile.isOpen = true) (hsize : c.filec.mfile.size = fileSize)
    (hpos : 1 ≤ fileSize) (hlt : fileSize / c.chsize.toNat < 2 ^ 32 - 1)
    (hcount : c.chcount = (calcChunkCount fileSize c.chsize.toNat).1) :
    Seekable c ∧ c.chcount ≠ 4294967295 ↔ Transferable fileSize c.chsize.toNat := by
  have hcount' := chcount_eq hcount hlt
  refine and_congr (seekable_iff hopen hsize hpos hcount') (not_congr ?_)
  rw [← UInt32.toNat_inj, hcount']
  change _ = 4294967295 ↔ _
  omega

end SuccessAux

open SuccessAux LoopsAux

namespace SuccessRun

/-- A process with a file of `size` bytes in chunks of two. -/
def party (buf : Bytes) : Proc := ⟨{ Sample.receiver with chsize := 2, chcount := (calcChunkCount buf.length 2).1, filec := {
  Sample.receiver.filec with mfile := { file := some 5, isOpen := true, size := buf.length, pos := 0, buf := buf }, size := buf.length } }, .setup⟩

theorem ready_party {buf : Bytes} (hpos : 1 ≤ buf.length) (hlt : buf.length / 2 < 2 ^ 32 - 1) : ReadyToPush (party buf) :=
  ⟨rfl, rfl, rfl, hpos, (by decide : 1 ≤ (2 : UInt16).toNat), hlt⟩

end SuccessRun

namespace SuccessAux

/-- The handle of the file, its size and the chunk size are those of `κ`. -/
def Sized (κ : InitConfig) (s : Proc) : Prop :=
  s.conf.filec.mfile.handle = κ.filec.mfile.handle ∧ s.conf.filec.size = κ.filec.size ∧ s.conf.chsize = κ.chsize

/-- The file of a configuration is transferable, unless it is not mapped in its whole length, or is empty or too large. -/
def Sent (c : InitConfig) : Prop :=
  c.filec.mfile.isOpen = true → c.filec.mfile.size = c.filec.size → 1 ≤ c.filec.size → c.filec.size / c.chsize.toNat < 2 ^ 32 - 1 →
    Transferable c.filec.size c.chsize.toNat

theorem Sent.sized {κ : InitConfig} {s : Proc} (h : Sent κ) (hsized : Sized κ s) : Sent s.conf := by
  obtain ⟨hhandle, hsize, hchsize⟩ := hsized
  obtain ⟨-, hopen, hmapped⟩ : _ ∧ s.conf.filec.mfile.isOpen = κ.filec.mfile.isOpen ∧ s.conf.filec.mfile.size = κ.filec.mfile.size := by
    simpa [MFile.handle] using hhandle
  unfold Sent
  rw [hopen, hmapped, hsize, hchsize]
  exact h

/-- A handshake that succeeds has stored what it makes of the configuration, and set `conf->seq`. -/
theorem after_offer (f : InitConfig → InitConfig) (s : Proc) : ((do
    enter .handshake
    setConf f
    let c ← conf
    let stat ← pushSendHeader c.cntlSock (sendArgs c 0) c.hstSend
    if stat ≠ .success then return stat
    let (stat, recv) ← pullRecvHeader c.cntlSock emptyRecv c.hstRecv
    if stat ≠ .success then return stat
    setConf (fun c => { c with seq := 1 })
    return if recv.ack = 0 then .zeroack else stat : Prog Status) s).After (fun _ s' stat => stat = .success →
      s'.conf.seq = 1 ∧ s'.conf.filec = (f s.conf).filec ∧ s'.conf.chsize = (f s.conf).chsize ∧ s'.conf.chcount = (f s.conf).chcount) := by
  refine after_enter (after_setConf (after_conf ?_))
  have hpush (s₁ : Proc) : Within (fun s' => s' = s₁) (fun _ _ => True) (pushSendHeader s₁.conf.cntlSock (sendArgs s₁.conf 0) s₁.conf.hstSend) :=
    within_pushHeader (fun _ _ _ _ => trivial) _ _ _
  refine after_bind_of ((hpush _).after rfl) ?_
  rintro tr _ stat ⟨rfl, -⟩
  refine after_ite (fun h => after_pure fun h' => absurd h' h) fun _ => ?_
  have hpull (s₁ : Proc) : Within (fun s' => s' = s₁) (fun _ _ => True) (pullRecvHeader s₁.conf.cntlSock emptyRecv s₁.conf.hstRecv) :=
    within_pullRecvHeader (fun _ _ _ _ => trivial) _ _ _
  refine after_bind_of ((hpull _).after rfl) ?_
  rintro tr _ got ⟨rfl, -⟩
  exact after_ite (fun h => after_pure fun h' => absurd h' h) fun _ => after_setConf (after_pure fun _ => ⟨rfl, rfl, rfl, rfl⟩)

theorem counts_kept {c c' : InitConfig} {counts : UInt32 × UInt16} (h : counts = calcChunkCount c.filec.size c.chsize.toNat)
    (hfilec : c'.filec = c.filec) (hchsize : c'.chsize = c.chsize) (hchcount : c'.chcount = counts.1) :
    c'.chcount = (calcChunkCount c'.filec.size c'.chsize.toNat).1 := by
  rw [hchcount, hfilec, hchsize, h]

/-- The handshake counts the chunks, and the first is next. -/
theorem after_pushHandshake_counted (s : Proc) : (pushHandshake s).After (fun _ s' stat => stat = .success →
    s'.conf.seq = 1 ∧ s'.conf.chcount = (calcChunkCount s'.conf.filec.size s'.conf.chsize.toNat).1) := by
  refine Tree.After.mono (after_offer _ s) fun _ s' _ h hsucc => ?_
  obtain ⟨hseq, hfilec, hchsize, hchcount⟩ := h hsucc
  exact ⟨hseq, counts_kept rfl hfilec hchsize hchcount⟩

theorem after_startData_filec (s : Proc) : (startData s).After (fun _ s' _ =>
    s'.conf.filec = s.conf.filec ∧ s'.conf.chsize = s.conf.chsize ∧ s'.conf.chcount = s.conf.chcount ∧ s'.conf.seq = s.conf.seq) := by
  unfold startData
  refine after_conf (after_ite (fun _ => after_pure ⟨rfl, rfl, rfl, rfl⟩) fun _ => ?_)
  refine after_bind_of (HandlesAux.after_initUdpSocket _ _ _ _ _ s) ?_
  rintro tr _ got ⟨rfl, -⟩
  exact after_setConf (after_pure ⟨rfl, rfl, rfl, rfl⟩)

/-- A transfer that succeeds has sought every chunk. -/
theorem after_pushTransfer_seekable (Γ : Libcrc) (rounds : Nat) {s : Proc} (hseq : s.conf.seq = 1) :
    (pushTransfer Γ rounds s).After (fun _ _ stat => stat = .success → Seekable s.conf ∧ s.conf.chcount ≠ 4294967295) := by
  rw [pushTransfer_eq]
  by_cases hall : s.conf.chcount = 4294967295
  · exact (not_success_of_all (loop_push Γ) (seeking_push Γ) rounds _ { s with phase := .flow } hall).mono fun _ _ _ h h' => absurd h' h
  · have hn : s.conf.chcount.toNat + 1 < 2 ^ 32 := by
      have hlt := s.conf.chcount.toNat_lt
      have hne : s.conf.chcount.toNat ≠ 4294967295 := fun h => hall (UInt32.toNat_inj.1 h)
      omega
    refine (sought_of_loop (loop_push Γ) (seeking_push Γ) hn rounds _ 0 { s with phase := .flow } rfl ?_).mono ?_
    · exact congrArg UInt32.toNat hseq
    · exact fun _ _ _ h hsucc => ⟨fun seq hone hle => h hsucc seq (UInt32.le_iff_toNat_le.1 hone) hle, hall⟩

/-- What the phases of the sender report as sent is transferable. -/
theorem after_pushPhases_sent (Γ : Libcrc) (rounds : Nat) (s : Proc) :
    (pushPhases Γ rounds startData s).After (fun _ s' stat => stat = .success → Sent s'.conf) := by
  unfold pushPhases
  refine after_check (after_pushHandshake_counted s) (fun _ _ _ _ hne h => absurd h hne) fun tr₁ s₁ hcounted => ?_
  obtain ⟨hseq, hcount⟩ := hcounted rfl
  refine after_check (after_startData_filec s₁) (fun _ _ _ _ hne h => absurd h hne) ?_
  rintro tr₂ s₂ ⟨hfilec, hchsize, hchcount, hseq₂⟩
  refine after_setConf ?_
  generalize hs : ({ conf := _, phase := _ } : Proc) = s₃
  have hseq₃ : s₃.conf.seq = 1 := by
    rw [← hs]
    exact hseq₂.trans hseq
  have hcount₃ : s₃.conf.chcount = (calcChunkCount s₃.conf.filec.size s₃.conf.chsize.toNat).1 := by
    rw [← hs]
    change s₂.conf.chcount = (calcChunkCount s₂.conf.filec.size s₂.conf.chsize.toNat).1
    rw [hfilec, hchsize, hchcount]
    exact hcount
  have htransfer : Within (Sized s₃.conf) (fun _ _ => True) (pushTransfer Γ rounds) :=
    within_pushTransfer (fun _ _ _ _ => trivial) (fun _ _ hs h => ⟨hs.trans h.1, h.2⟩) (fun _ _ h => h) (fun _ h => h) (fun _ h => h) Γ rounds
  refine after_check ((htransfer.after ⟨rfl, rfl, rfl⟩).and (after_pushTransfer_seekable Γ rounds hseq₃))
    (fun _ _ _ _ hne h => absurd h hne) ?_
  rintro tr₄ s₄ ⟨⟨hsized, -⟩, hseek⟩
  have hsent : Sent s₃.conf := fun hopen hsize hpos hlt => (transferable_iff hopen hsize hpos hlt hcount₃).1 (hseek rfl)
  have hverification : Within (Sized s₃.conf) (fun _ _ => True) (pushVerification Γ) :=
    within_pushVerification (fun _ _ _ _ => trivial) (fun _ h => h) Γ
  exact (hverification.after hsized).mono fun _ _ _ h _ => hsent.sized h.1

end SuccessAux

end RufShare
