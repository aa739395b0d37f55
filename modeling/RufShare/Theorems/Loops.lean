import RufShare.Lemmas.Total

/-!
# The transfer loops come to an end

Both transfer loops compare two 32-bit counters and increment the first after each exchange. They leave after one exchange for each
chunk, unless there are `2 ^ 32 - 1` chunks: the counter never passes the largest value, and the loop goes on for as long as the
exchanges succeed.
-/

namespace RufShare

open Resumption

/-- The calls of a run are those of the exchanges `m + 1` to `n`: one after the other, each with at least one call, and all its calls
made with its number in `conf->seq`. -/
inductive Exchanges : Nat → Nat → List Event → Prop where
  | done (n : Nat) : Exchanges n n []
  | next {m n : Nat} {exchange rest : List Event} : exchange ≠ [] → (∀ e ∈ exchange, e.state.conf.seq.toNat = m + 1) →
      Exchanges (m + 1) n rest → Exchanges m n (exchange ++ rest)

/-- The loop comes to an end, and a run of it in which every exchange succeeds makes the exchanges `1` to `chcount` and leaves
`conf->seq` one past `chcount`. -/
def EndsAfterChunks (transfer : Nat → Prog Status) (s : Proc) : Prop :=
  (∀ rounds, s.conf.chcount.toNat < rounds → (transfer rounds s).Complete) ∧
  ∀ rounds tr s', Run (transfer rounds s) tr s' .success →
    Exchanges 0 s.conf.chcount.toNat tr ∧ s'.conf.seq.toNat = s.conf.chcount.toNat + 1

/-- A process at the beginning of its transfer: the handshake has set `conf->seq`, and `conf->segsize` is set. -/
def beginTransfer (s : Proc) : Proc := { s with conf := { s.conf with seq := 1, segsize := segsizeOf s.conf } }

/-- Nothing on this side keeps an exchange from succeeding: a try is allowed, and the cursor can be set to every chunk. -/
def Exchangeable (c : InitConfig) : Prop :=
  c.tfTrycount ≠ 0 ∧ ∀ seq, (mfseek c.filec.mfile (chunkContext { c with seq := seq }).startPos).1 =
    (chunkContext { c with seq := seq }).startPos

namespace LoopsAux

/-! ## One exchange -/

/-- A round of the outer loop of `push_transfer` without the increment of `seq`. -/
def pushExchange (Γ : Libcrc) (c : InitConfig) (trycount : Nat) : Prog Status := do
  let chcon := chunkContext c
  let flow := packFlowPacket (UInt16.ofNat chcon.chunkSize) c.seq (calcChunkCrc32 Γ c.filec chcon)
  let (stat, trycount) ← pushFlowLoop flow trycount
  if stat ≠ .success then return stat
  if trycount = 0 then return .exptry0
  let (stat, trycount) ← pushDataLoop chcon c.tfTrycount
  if stat ≠ .success then return stat
  if trycount = 0 then return .exptry1
  return .success

/-- A round of the outer loop of `pull_transfer` without the increment of `seq`. -/
def pullExchange (Γ : Libcrc) (c : InitConfig) (trycount : Nat) : Prog Status := do
  let chcon := chunkContext c
  let (stat, flow) ← pullFlowHeader c.connSock emptyFlow c.tftFlow
  if stat ≠ .success then return stat
  if matchFlow c flow then
    let stat ← pushRecvHeader c.connSock (packRecvPacket 1 0 c.seq) c.tftRecv
    if stat ≠ .success then return stat
    let (stat, trycount) ← pullDataLoop Γ flow chcon trycount
    if stat ≠ .success then return stat
    if trycount = 0 then return .exptry0
    return .success
  else
    let _ ← pushRecvHeader c.connSock (packRecvPacket 0 0 c.seq) c.tftRecv
    return .badflow

/-- The rest of a loop after an exchange. -/
def afterExchange (loop : Nat → Nat → Prog Status) (rounds trycount : Nat) (stat : Status) : Prog Status :=
  if stat ≠ .success then pure stat else do
    setConf (fun c => { c with seq := c.seq + 1 })
    loop rounds trycount

/-- A loop that makes one exchange a round, as long as `seq` is not past `chcount`. -/
structure Loop (exchange : InitConfig → Nat → Prog Status) (loop : Nat → Nat → Prog Status) : Prop where
  zero : ∀ trycount s, loop 0 trycount s = .cut s
  leave : ∀ rounds trycount (s : Proc), ¬s.conf.seq ≤ s.conf.chcount →
    ∃ p, loop (rounds + 1) trycount s = .ret { s with phase := p } .success
  round : ∀ rounds trycount (s : Proc), s.conf.seq ≤ s.conf.chcount → ∃ p, loop (rounds + 1) trycount s =
    (exchange s.conf trycount >>= afterExchange loop rounds s.conf.tfTrycount) { s with phase := p }

theorem afterExchange_fail {loop : Nat → Nat → Prog Status} {rounds trycount : Nat} {stat : Status} (h : stat ≠ .success) :
    afterExchange loop rounds trycount stat = pure stat := if_pos h

/-- An early return of an exchange ends the loop. -/
theorem check_bind {loop : Nat → Nat → Prog Status} {rounds trycount : Nat} (stat : Status) {x y : Prog Status}
    (h : x = (y >>= afterExchange loop rounds trycount)) : (if stat ≠ .success then pure stat else x) =
      ((if stat ≠ .success then pure stat else y) >>= afterExchange loop rounds trycount) := by
  by_cases hs : stat ≠ .success
  · rw [if_pos hs, if_pos hs, pure_bind, afterExchange_fail hs]
  · rw [if_neg hs, if_neg hs, h]

/-- So does a return of `EXPTRY0` or `EXPTRY1`. -/
theorem tries_bind {loop : Nat → Nat → Prog Status} {rounds trycount : Nat} (tries : Nat) {stat : Status} {x y : Prog Status}
    (hstat : stat ≠ .success) (h : x = (y >>= afterExchange loop rounds trycount)) : (if tries = 0 then pure stat else x) =
      ((if tries = 0 then pure stat else y) >>= afterExchange loop rounds trycount) := by
  by_cases ht : tries = 0
  · rw [if_pos ht, if_pos ht, pure_bind, afterExchange_fail hstat]
  · rw [if_neg ht, if_neg ht, h]

theorem bind_congr_of {α β : Type} {x : Prog α} {f g : α → Prog β} (h : ∀ a, f a = g a) : (x >>= f) = (x >>= g) :=
  congrArg (x >>= ·) (funext h)

theorem pushTransferLoop_round (Γ : Libcrc) (rounds trycount : Nat) (s : Proc) (h : s.conf.seq ≤ s.conf.chcount) :
    pushTransferLoop Γ (rounds + 1) trycount s =
      (pushExchange Γ s.conf trycount >>= afterExchange (pushTransferLoop Γ) rounds s.conf.tfTrycount) s := by
  change (if s.conf.seq ≤ s.conf.chcount then _ else pure Status.success : Prog Status) s = _
  rw [if_pos h]
  refine congrArg (fun x : Prog Status => x s) ?_
  rw [pushExchange, bind_assoc]
  refine bind_congr_of fun got => check_bind got.1 (tries_bind got.2 nofun ?_)
  rw [bind_assoc]
  exact bind_congr_of fun got => check_bind got.1 (tries_bind got.2 nofun rfl)

theorem loop_push (Γ : Libcrc) : Loop (pushExchange Γ) (pushTransferLoop Γ) where
  zero := fun _ _ => rfl
  leave := by
    intro rounds trycount s h
    refine ⟨s.phase, ?_⟩
    change (if s.conf.seq ≤ s.conf.chcount then _ else pure Status.success : Prog Status) s = _
    rw [if_neg h]
    rfl
  round := fun rounds trycount s h => ⟨s.phase, pushTransferLoop_round Γ rounds trycount s h⟩

theorem pullTransferLoop_round (Γ : Libcrc) (rounds trycount : Nat) (s : Proc) (h : s.conf.seq ≤ s.conf.chcount) :
    pullTransferLoop Γ (rounds + 1) trycount s =
      (pullExchange Γ s.conf trycount >>= afterExchange (pullTransferLoop Γ) rounds s.conf.tfTrycount) { s with phase := .flow } := by
  change (if s.conf.seq ≤ s.conf.chcount then _ else pure Status.success : Prog Status) { s with phase := .flow } = _
  rw [if_pos h]
  refine congrArg (fun x : Prog Status => x { s with phase := .flow }) ?_
  rw [pullExchange, bind_assoc]
  refine bind_congr_of fun got => check_bind got.1 ?_
  by_cases hmatch : matchFlow s.conf got.2 = true
  · simp only [hmatch, if_true]
    rw [bind_assoc]
    refine bind_congr_of fun stat => check_bind stat ?_
    rw [bind_assoc]
    exact bind_congr_of fun got => check_bind got.1 (tries_bind got.2 nofun rfl)
  · simp only [hmatch, Bool.false_eq_true, if_false]
    rw [bind_assoc]
    rfl

theorem loop_pull (Γ : Libcrc) : Loop (pullExchange Γ) (pullTransferLoop Γ) where
  zero := fun _ _ => rfl
  leave := by
    intro rounds trycount s h
    refine ⟨.flow, ?_⟩
    change (if s.conf.seq ≤ s.conf.chcount then _ else pure Status.success : Prog Status) { s with phase := .flow } = _
    rw [if_neg h]
    rfl
  round := fun rounds trycount s h => ⟨.flow, pullTransferLoop_round Γ rounds trycount s h⟩

/-! ## What an exchange keeps -/

/-- A process whose configuration is `κ` except for the file. -/
def Kept (κ : InitConfig) (s : Proc) : Prop := { s.conf with filec := κ.filec } = κ

theorem kept_self (s : Proc) : Kept s.conf s := rfl

section Kept

variable {κ : InitConfig} {s : Proc} (h : Kept κ s)
include h

theorem Kept.seq : s.conf.seq = κ.seq := by
  unfold Kept at h
  rw [← h]

theorem Kept.chcount : s.conf.chcount = κ.chcount := by
  unfold Kept at h
  rw [← h]

theorem Kept.segsize : s.conf.segsize = κ.segsize := by
  unfold Kept at h
  rw [← h]

theorem Kept.segsizeOf_next (seq : UInt32) : segsizeOf { s.conf with seq := seq } = segsizeOf κ := by
  unfold Kept at h
  rw [← h]
  rfl

end Kept

/-- A program that changes nothing but the file. -/
abbrev KeepsConf {α : Type} (x : Prog α) : Prop := ∀ κ, Within (Kept κ) (fun s _ => Kept κ s) x

/-- What is shown of an exchange: it changes nothing but the file, makes a call, and comes to an end. -/
structure Exchange (exchange : InitConfig → Nat → Prog Status) : Prop where
  keeps : ∀ c trycount, KeepsConf (exchange c trycount)
  calls : ∀ c trycount s, (exchange c trycount s).After (fun tr _ stat => stat = .success → tr ≠ [])
  complete : ∀ c trycount s, (chunkContext c).chunkSize = 0 ∨ 0 < s.conf.segsize → (exchange c trycount s).Complete

theorem keeps_pushHeader (sock : Sockfd) (buf : Bytes) (timeout : Int) : KeepsConf (pushHeader sock buf timeout) :=
  fun _ => within_pushHeader (fun _ _ h _ => h) sock buf timeout

theorem keeps_pullFlowHeader (sock : Sockfd) (args : FlowPacket) (timeout : Int) : KeepsConf (pullFlowHeader sock args timeout) :=
  fun _ => within_pullFlowHeader (fun _ _ h _ => h) sock args timeout

theorem keeps_pushFlowLoop (flow : FlowPacket) (trycount : Nat) : KeepsConf (pushFlowLoop flow trycount) :=
  fun _ => within_pushFlowLoop (fun _ _ h _ => h) (fun _ h => h) flow trycount

theorem keeps_pushDataLoop (chcon : ChunkContext) (trycount : Nat) : KeepsConf (pushDataLoop chcon trycount) :=
  fun _ => within_pushDataLoop (fun _ _ h _ => h) (fun _ _ _ h => h) (fun _ h => h) chcon trycount

theorem keeps_pullDataLoop (Γ : Libcrc) (flow : FlowPacket) (chcon : ChunkContext) (trycount : Nat) :
    KeepsConf (pullDataLoop Γ flow chcon trycount) :=
  fun _ => within_pullDataLoop (fun _ _ h _ => h) (fun _ _ _ h => h) (fun _ h => h) Γ flow chcon trycount

theorem keeps_pushChunkData (sock : Sockfd) (chunk : ChunkContext) (timeout : Int) : KeepsConf (pushChunkData sock chunk timeout) :=
  fun _ => within_pushChunkData (fun _ _ h _ => h) (fun _ _ _ h => h) sock chunk timeout

theorem keeps_pullChunkData (sock : Sockfd) (chunk : ChunkContext) (timeout : Int) : KeepsConf (pullChunkData sock chunk timeout) :=
  fun _ => within_pullChunkData (fun _ _ h _ => h) (fun _ _ _ h => h) sock chunk timeout

/-- A sequence is complete when its first part keeps the segment size and the second is complete with that size. -/
theorem complete_bind_keeps {α β : Type} {x : Prog α} {f : α → Prog β} {s : Proc} (hx : (x s).Complete) (hkeeps : KeepsConf x)
    (hf : ∀ s' a, s'.conf.segsize = s.conf.segsize → (f a s').Complete) : ((x >>= f) s).Complete :=
  complete_bind hx (((hkeeps s.conf).after (kept_self s)).mono fun _ s' a h => hf s' a h.1.segsize)

theorem complete_pushFlowLoop (flow : FlowPacket) (trycount : Nat) : Total (pushFlowLoop flow trycount) := by
  induction trycount with
  | zero => exact .pure _
  | succ trycount ih =>
    unfold pushFlowLoop
    refine (Total.enter _).bind fun _ => Total.conf.bind fun c => ?_
    refine (total_pushHeader _ _ _).bind fun stat => .ite (.pure _) ?_
    exact (total_pullRecvHeader _ _ _).bind fun got => .ite (.pure _) (.ite (.pure _) ih)

theorem complete_pushDataLoop (chcon : ChunkContext) (trycount : Nat) : ∀ s : Proc,
    chcon.chunkSize = 0 ∨ 0 < s.conf.segsize → (pushDataLoop chcon trycount s).Complete := by
  induction trycount with
  | zero => exact fun _ _ => trivial
  | succ trycount ih =>
    intro s hseg
    unfold pushDataLoop
    refine complete_enter (complete_conf ?_)
    refine complete_bind_keeps (complete_pushChunkData _ _ hseg.resolve_left) (keeps_pushChunkData _ _ _) fun s₁ stat h₁ => ?_
    refine complete_ite (fun _ => complete_pure) fun _ => ?_
    refine complete_bind_keeps (total_pullRecvHeader _ _ _ _) (fun κ => within_pullRecvHeader (fun _ _ h _ => h) _ _ _)
      fun s₂ got h₂ => ?_
    refine complete_ite (fun _ => complete_pure) fun _ => complete_ite (fun _ => complete_pure) fun _ => ih s₂ ?_
    rw [h₂, h₁]
    exact hseg

theorem complete_pullDataLoop (Γ : Libcrc) (flow : FlowPacket) (chcon : ChunkContext) (trycount : Nat) : ∀ s : Proc,
    chcon.chunkSize = 0 ∨ 0 < s.conf.segsize → (pullDataLoop Γ flow chcon trycount s).Complete := by
  induction trycount with
  | zero => exact fun _ _ => trivial
  | succ trycount ih =>
    intro s hseg
    unfold pullDataLoop
    refine complete_enter (complete_conf ?_)
    refine complete_bind_keeps (complete_pullChunkData _ _ hseg.resolve_left) (keeps_pullChunkData _ _ _) fun s₁ stat h₁ => ?_
    refine complete_ite (fun _ => complete_pure) fun _ => complete_conf (complete_ite (fun _ => ?_) fun _ => ?_)
    · exact (total_pushHeader _ _ _ _).bind fun _ _ => complete_ite (fun _ => complete_pure) (fun _ => complete_pure)
    · refine complete_bind_keeps (total_pushHeader _ _ _ _) (keeps_pushHeader _ _ _) fun s₂ stat h₂ => ?_
      refine complete_ite (fun _ => complete_pure) fun _ => ih s₂ ?_
      rw [h₂, h₁]
      exact hseg

/-- A program whose first step is a call has one in every run. -/
theorem after_calls {α : Type} {t : Tree α} (h : t.pending ≠ none) : t.After (fun tr _ _ => tr ≠ []) := by
  cases t with
  | ret s a => exact absurd rfl h
  | cut s => trivial
  | call s c k => exact fun r => Tree.after_iff.2 (fun _ _ _ _ => List.cons_ne_nil _ _)

theorem exchange_push (Γ : Libcrc) : Exchange (pushExchange Γ) where
  keeps := by
    intro c trycount κ
    unfold pushExchange
    refine (keeps_pushFlowLoop _ _ κ).bind fun got => .ite (.pure _) (.ite (.pure _) ?_)
    exact (keeps_pushDataLoop _ _ κ).bind fun got => .ite (.pure _) (.ite (.pure _) (.pure _))
  calls := by
    intro c trycount s
    cases trycount with
    | zero => exact nofun
    | succ trycount =>
      refine Tree.After.mono (after_calls ?_) (fun _ _ _ h _ => h)
      exact Option.some_ne_none _
  complete := by
    intro c trycount s hseg
    unfold pushExchange
    refine complete_bind_keeps (complete_pushFlowLoop _ _ s) (keeps_pushFlowLoop _ _) fun s₁ got h₁ => ?_
    refine complete_ite (fun _ => complete_pure) fun _ => complete_ite (fun _ => complete_pure) fun _ => ?_
    rw [← h₁] at hseg
    refine (complete_pushDataLoop _ _ s₁ hseg).bind fun s₂ got => ?_
    exact complete_ite (fun _ => complete_pure) fun _ => complete_ite (fun _ => complete_pure) fun _ => complete_pure

theorem exchange_pull (Γ : Libcrc) : Exchange (pullExchange Γ) where
  keeps := by
    intro c trycount κ
    unfold pullExchange
    refine (keeps_pullFlowHeader _ _ _ κ).bind fun got => .ite (.pure _) (.ite ?_ ?_)
    · refine (keeps_pushHeader _ _ _ κ).bind fun stat => .ite (.pure _) ?_
      exact (keeps_pullDataLoop _ _ _ _ κ).bind fun got => .ite (.pure _) (.ite (.pure _) (.pure _))
    · exact (keeps_pushHeader _ _ _ κ).bind fun _ => .pure _
  calls := by
    intro c trycount s
    refine Tree.After.mono (after_calls ?_) (fun _ _ _ h _ => h)
    exact Option.some_ne_none _
  complete := by
    intro c trycount s hseg
    unfold pullExchange
    refine complete_bind_keeps (total_pullFlowHeader _ _ _ s) (keeps_pullFlowHeader _ _ _) fun s₁ got h₁ => ?_
    refine complete_ite (fun _ => complete_pure) fun _ => complete_ite (fun _ => ?_) fun _ => ?_
    · refine complete_bind_keeps (total_pushHeader _ _ _ s₁) (keeps_pushHeader _ _ _) fun s₂ stat h₂ => ?_
      refine complete_ite (fun _ => complete_pure) fun _ => ?_
      rw [← h₁, ← h₂] at hseg
      refine (complete_pullDataLoop _ _ _ _ s₂ hseg).bind fun s₃ got => ?_
      exact complete_ite (fun _ => complete_pure) fun _ => complete_ite (fun _ => complete_pure) fun _ => complete_pure
    · exact (total_pushHeader _ _ _ s₁).bind fun _ _ => complete_pure

/-! ## The loops -/

/-- After an exchange `seq` can be incremented when there are fewer than `2 ^ 32 - 1` chunks. -/
theorem seq_next {κ : InitConfig} {s : Proc} (h : Kept κ s) (hseq : κ.seq ≤ κ.chcount) (hcount : κ.chcount.toNat + 1 < 2 ^ 32) :
    (s.conf.seq + 1).toNat = κ.seq.toNat + 1 := by
  have hle := UInt32.le_iff_toNat_le.1 hseq
  rw [h.seq, UInt32.toNat_add]
  exact Nat.mod_eq_of_lt (Nat.lt_of_le_of_lt (Nat.succ_le_succ hle) hcount)

section Loop

variable {exchange : InitConfig → Nat → Prog Status} {loop : Nat → Nat → Prog Status} (hloop : Loop exchange loop)
  (hexchange : Exchange exchange)
include hloop hexchange

theorem after_loop {n : Nat} (hn : n + 1 < 2 ^ 32) (rounds : Nat) : ∀ trycount m (s : Proc), s.conf.chcount.toNat = n →
    s.conf.seq.toNat = m + 1 → m ≤ n → (loop rounds trycount s).After (fun tr s' stat =>
      stat = .success → Exchanges m n tr ∧ s'.conf.seq.toNat = n + 1) := by
  -- induction on the rounds: each makes one exchange and increments `seq`
  induction rounds with
  | zero =>
    intro trycount m s _ _ _
    rw [hloop.zero]
    trivial
  | succ rounds ih =>
    intro trycount m s hcount hseq hm
    by_cases hgo : s.conf.seq ≤ s.conf.chcount
    · obtain ⟨p, hround⟩ := hloop.round rounds trycount s hgo
      rw [hround]
      have hkeeps := (hexchange.keeps s.conf trycount s.conf).after (s := { s with phase := p }) (kept_self s)
      refine after_bind_of (hkeeps.and (hexchange.calls s.conf trycount _)) ?_
      rintro tr s₁ stat ⟨⟨hkept, hevents⟩, hcalls⟩
      refine after_ite (fun hne => after_pure fun h => absurd h hne) fun hstat => after_setConf ?_
      have hnext := seq_next hkept hgo (by rw [hcount]; exact hn)
      have hlt : m + 1 ≤ n := by
        rw [← hseq, ← hcount]
        exact UInt32.le_iff_toNat_le.1 hgo
      refine (ih _ (m + 1) { s₁ with conf := { s₁.conf with seq := s₁.conf.seq + 1 } } ?_ ?_ hlt).mono ?_
      · rw [← hcount]
        exact congrArg UInt32.toNat hkept.chcount
      · rw [← hseq]
        exact hnext
      intro tr' s' stat' h hsucc
      refine ⟨.next (hcalls (Decidable.not_not.1 hstat)) ?_ (h hsucc).1, (h hsucc).2⟩
      intro e he
      rw [(hevents e he).seq, hseq]
    · obtain ⟨p, hleave⟩ := hloop.leave rounds trycount s hgo
      rw [hleave]
      have hlt : n < m + 1 := by
        rw [← hseq, ← hcount]
        exact UInt32.lt_iff_toNat_lt.1 (UInt32.not_le.1 hgo)
      obtain rfl : m = n := Nat.le_antisymm hm (Nat.le_of_lt_succ hlt)
      exact after_pure fun _ => ⟨.done m, hseq⟩

theorem complete_loop {n : Nat} (hn : n + 1 < 2 ^ 32) (rounds : Nat) : ∀ trycount (s : Proc), s.conf.chcount.toNat = n →
    s.conf.seq.toNat ≤ n + 1 → n + 1 < rounds + s.conf.seq.toNat → s.conf.segsize = segsizeOf s.conf → (loop rounds trycount s).Complete := by
  induction rounds with
  | zero =>
    intro trycount s _ hle hrounds _
    omega
  | succ rounds ih =>
    intro trycount s hcount _ hrounds hseg
    by_cases hgo : s.conf.seq ≤ s.conf.chcount
    · obtain ⟨p, hround⟩ := hloop.round rounds trycount s hgo
      rw [hround]
      have hkeeps := (hexchange.keeps s.conf trycount s.conf).after (s := { s with phase := p }) (kept_self s)
      refine complete_bind (hexchange.complete _ _ _ ?_) (hkeeps.mono ?_)
      · rw [Decidable.or_iff_not_imp_left]
        exact fun hne => Nat.lt_of_lt_of_eq (segsizeOf_pos hne) hseg.symm
      rintro tr s₁ stat ⟨hkept, -⟩
      refine complete_ite (fun _ => complete_pure) fun _ => complete_setConf ?_
      have hnext := seq_next hkept hgo (by rw [hcount]; exact hn)
      have hlt : s.conf.seq.toNat ≤ n := by
        rw [← hcount]
        exact UInt32.le_iff_toNat_le.1 hgo
      refine ih _ { s₁ with conf := { s₁.conf with seq := s₁.conf.seq + 1 } } ?_ ?_ ?_ ?_
      · rw [← hcount]
        exact congrArg UInt32.toNat hkept.chcount
      · change (s₁.conf.seq + 1).toNat ≤ n + 1
        omega
      · change n + 1 < rounds + (s₁.conf.seq + 1).toNat
        omega
      · rw [hkept.segsizeOf_next, ← hseg]
        exact hkept.segsize
    · obtain ⟨p, hleave⟩ := hloop.leave rounds trycount s hgo
      rw [hleave]
      trivial

end Loop

/-! ## Exchanges that succeed -/

/-- Whether the file is mapped and its size stay. -/
def SameFile (stream stream' : MFile) : Prop := stream'.isOpen = stream.isOpen ∧ stream'.size = stream.size

theorem SameFile.trans {m₁ m₂ m₃ : MFile} (h : SameFile m₁ m₂) (h' : SameFile m₂ m₃) : SameFile m₁ m₃ :=
  ⟨h'.1.trans h.1, h'.2.trans h.2⟩

theorem sameFile_mfread (size nmemb : Nat) (stream : MFile) : SameFile stream (mfread size nmemb stream).2 := by
  cases h : stream.isOpen <;> simp [mfread, SameFile, h]

theorem sameFile_mfwrite (ptr : Bytes) (size nmemb : Nat) (stream : MFile) : SameFile stream (mfwrite ptr size nmemb stream) := by
  cases h : stream.isOpen <;> simp [mfwrite, SameFile, h]

theorem sameFile_mfseek (stream : MFile) (pos : Nat) : SameFile stream (mfseek stream pos).2 := by
  unfold mfseek
  split <;> exact ⟨rfl, rfl⟩

theorem mfseek_congr {stream stream' : MFile} (h : SameFile stream stream') (pos : Nat) :
    (mfseek stream' pos).1 = (mfseek stream pos).1 := by
  unfold mfseek
  rw [h.1, h.2]
  split <;> rfl

theorem may_pushSegments (sock : Sockfd) (timeout : Int) (rounds : Nat) : ∀ rsize s, rsize ≤ rounds →
    (rsize ≠ 0 → 0 < s.conf.segsize) → (pushSegments sock timeout rounds rsize s).May (fun _ s' stat =>
      stat = .success ∧ SameFile s.conf.filec.mfile s'.conf.filec.mfile) := by
  induction rounds with
  | zero =>
    intro rsize s hle _
    obtain rfl : rsize = 0 := Nat.le_zero.1 hle
    exact ⟨rfl, rfl, rfl⟩
  | succ rounds ih =>
    intro rsize s hle hseg
    cases rsize with
    | zero => exact ⟨rfl, rfl, rfl⟩
    | succ rsize =>
      have hpos := hseg (Nat.succ_ne_zero _)
      unfold pushSegments pushUdpData
      refine may_conf ?_
      have hrest : rsize + 1 - (if s.conf.segsize ≤ rsize + 1 then s.conf.segsize else rsize + 1) ≤ rounds := by
        split <;> omega
      generalize (if s.conf.segsize ≤ rsize + 1 then s.conf.segsize else rsize + 1) = size at hrest ⊢
      have hsame := sameFile_mfread size 1 s.conf.filec.mfile
      generalize mfread size 1 s.conf.filec.mfile = read at hsame ⊢
      refine may_setConf (may_syscall ⟨.ready true, may_ite_neg (by simp) (may_bind ?_)⟩)
      refine may_syscall ⟨some (fillSegbuf size read.1).length, may_ite_neg (Nat.lt_irrefl _) (may_ite_neg (fun h => h rfl) ?_)⟩
      obtain ⟨tr, s', stat, hrun, hstat, hfile⟩ := (ih (rsize + 1 - size)
        { s with conf := { s.conf with filec := { s.conf.filec with mfile := read.2 } } } hrest (fun _ => hpos)).run
      exact .of_run hrun ⟨hstat, hsame.trans hfile⟩

theorem may_pullSegments (sock : Sockfd) (timeout : Int) (rounds : Nat) : ∀ rsize s, rsize ≤ rounds →
    (rsize ≠ 0 → 0 < s.conf.segsize) → (pullSegments sock timeout rounds rsize s).May (fun _ s' stat =>
      stat = .success ∧ SameFile s.conf.filec.mfile s'.conf.filec.mfile) := by
  induction rounds with
  | zero =>
    intro rsize s hle _
    obtain rfl : rsize = 0 := Nat.le_zero.1 hle
    exact ⟨rfl, rfl, rfl⟩
  | succ rounds ih =>
    intro rsize s hle hseg
    cases rsize with
    | zero => exact ⟨rfl, rfl, rfl⟩
    | succ rsize =>
      have hpos := hseg (Nat.succ_ne_zero _)
      unfold pullSegments pullUdpData
      refine may_conf (may_syscall ⟨.ready true, may_ite_neg (by simp) (may_bind ?_)⟩)
      have hrest : rsize + 1 - (if s.conf.segsize ≤ rsize + 1 then s.conf.segsize else rsize + 1) ≤ rounds := by
        split <;> omega
      generalize (if s.conf.segsize ≤ rsize + 1 then s.conf.segsize else rsize + 1) = size at hrest ⊢
      refine may_syscall ⟨some ⟨List.replicate size 0, Nat.le_of_eq List.length_replicate⟩, may_ite_neg ?_ ?_⟩
      · rw [List.length_replicate]
        exact Nat.lt_irrefl _
      refine may_ite_neg (fun h => h rfl) (may_setConf ?_)
      have hsame := sameFile_mfwrite (List.replicate size 0) size 1 s.conf.filec.mfile
      generalize mfwrite (List.replicate size 0) size 1 s.conf.filec.mfile = mfile at hsame ⊢
      obtain ⟨tr, s', stat, hrun, hstat, hfile⟩ := (ih (rsize + 1 - size)
        { s with conf := { s.conf with filec := { s.conf.filec with mfile := mfile } } } hrest (fun _ => hpos)).run
      exact .of_run hrun ⟨hstat, hsame.trans hfile⟩

/-- A chunk the cursor can be set to may be sent. -/
theorem may_pushChunkData (sock : Sockfd) {chunk : ChunkContext} (timeout : Int) {s : Proc}
    (hseek : (mfseek s.conf.filec.mfile chunk.startPos).1 = chunk.startPos) (hseg : chunk.chunkSize ≠ 0 → 0 < s.conf.segsize) :
    (pushChunkData sock chunk timeout s).May (fun _ s' stat =>
      stat = .success ∧ SameFile s.conf.filec.mfile s'.conf.filec.mfile) := by
  unfold pushChunkData
  refine may_conf (may_syscall ⟨true, may_ite_neg nofun ?_⟩)
  have hsame := sameFile_mfseek s.conf.filec.mfile chunk.startPos
  generalize mfseek s.conf.filec.mfile chunk.startPos = sought at hseek hsame ⊢
  refine may_setConf (may_ite_neg (fun h => h hseek.symm) ?_)
  obtain ⟨tr, s', stat, hrun, hstat, hfile⟩ := (may_pushSegments sock timeout _ chunk.chunkSize
    { s with conf := { s.conf with filec := { s.conf.filec with mfile := sought.2 } } } (Nat.le_refl _) hseg).run
  exact .of_run hrun ⟨hstat, hsame.trans hfile⟩

/-- And may be received. -/
theorem may_pullChunkData (sock : Sockfd) {chunk : ChunkContext} (timeout : Int) {s : Proc}
    (hseek : (mfseek s.conf.filec.mfile chunk.startPos).1 = chunk.startPos) (hseg : chunk.chunkSize ≠ 0 → 0 < s.conf.segsize) :
    (pullChunkData sock chunk timeout s).May (fun _ s' stat =>
      stat = .success ∧ SameFile s.conf.filec.mfile s'.conf.filec.mfile) := by
  unfold pullChunkData
  refine may_conf (may_syscall ⟨true, may_ite_neg nofun ?_⟩)
  have hsame := sameFile_mfseek s.conf.filec.mfile chunk.startPos
  generalize mfseek s.conf.filec.mfile chunk.startPos = sought at hseek hsame ⊢
  refine may_setConf (may_ite_neg (fun h => h hseek.symm) (may_bind ?_))
  obtain ⟨tr, s', stat, hrun, hstat, hfile⟩ := (may_pullSegments sock timeout _ chunk.chunkSize
    { s with conf := { s.conf with filec := { s.conf.filec with mfile := sought.2 } } } (Nat.le_refl _) hseg).run
  have hrest : ((do
      let stat ← pullSegments sock timeout chunk.chunkSize chunk.chunkSize
      if stat ≠ .success then return stat
      let c ← conf
      let synced ← mfsync c.filec.mfile
      if !synced then return .emfsync
      return stat : Prog Status) { s with conf := { s.conf with filec := { s.conf.filec with mfile := sought.2 } } }).May
        (fun _ s' stat => stat = .success ∧ SameFile s.conf.filec.mfile s'.conf.filec.mfile) := by
    refine may_bind (.of_run hrun (may_ite_neg (fun h => h hstat) (may_conf ?_)))
    unfold mfsync
    exact may_bind (may_syscall ⟨some 1, true, may_ite_neg nofun ⟨hstat, hsame.trans hfile⟩⟩)
  by_cases hfirst : chunk.startPos = 0
  · refine may_ite_pos hfirst ?_
    unfold setSocketRcvlowsize
    exact may_syscall ⟨true, may_ite_neg nofun (may_ite_neg (fun h => h rfl) hrest)⟩
  · exact may_ite_neg hfirst (may_ite_neg (fun h => h rfl) hrest)

theorem may_pullPacket {sock : Sockfd} {type : PacketType} {timeout : Int} {s : Proc} {b : Bytes}
    {Q : List Event → Proc → Status × Bytes → Prop} (hb : b.length = type.size) (h : ∀ tr, Q tr s (.success, b)) :
    (pullPacket sock type timeout s).May Q := by
  unfold pullPacket pullType
  refine may_bind (may_syscall ⟨.ready true, may_ite_neg nofun (may_bind ?_)⟩)
  refine may_pullTcpData (b := [type.code]) rfl (may_ite_neg (fun h => h rfl) (may_ite_neg (fun h => h rfl) ?_))
  exact may_ite_neg (fun h => h rfl) (may_pullTcpData hb (h _))

/-- The answer to a push may be an acknowledgement. -/
theorem may_pullRecvHeader {sock : Sockfd} {args : RecvPacket} {timeout : Int} {s : Proc}
    {Q : List Event → Proc → Status × RecvPacket → Prop} (h : ∀ tr recv, recv.ack = 1 → Q tr s (.success, recv)) :
    (pullRecvHeader sock args timeout s).May Q := by
  unfold pullRecvHeader
  refine may_bind (may_pullPacket (RecvPacket.length_bytes (packRecvPacket 1 0 0)) fun tr => may_ite_neg (fun h => h rfl) ?_)
  refine h _ _ ?_
  rw [RecvPacket.ofBytes_bytes]
  rfl

/-- An exchange that nothing on this side keeps from succeeding may succeed, and leaves it so. -/
def MaySucceed (exchange : InitConfig → Nat → Prog Status) : Prop :=
  ∀ trycount (s : Proc) p, trycount ≠ 0 → Exchangeable s.conf → s.conf.segsize = segsizeOf s.conf →
    (exchange s.conf trycount { s with phase := p }).May (fun _ s' stat =>
      stat = .success ∧ SameFile s.conf.filec.mfile s'.conf.filec.mfile)

/-- What `push_transfer` does with a chunk the cursor can be set to may succeed. -/
theorem may_pushExchange (Γ : Libcrc) {trycount : Nat} {s : Proc} (p : Phase) (htries : trycount ≠ 0) (htf : s.conf.tfTrycount ≠ 0)
    (hseek : (mfseek s.conf.filec.mfile (chunkContext s.conf).startPos).1 = (chunkContext s.conf).startPos)
    (hseg : s.conf.segsize = segsizeOf s.conf) : (pushExchange Γ s.conf trycount { s with phase := p }).May (fun _ s' stat =>
      stat = .success ∧ SameFile s.conf.filec.mfile s'.conf.filec.mfile) := by
  obtain ⟨trycount, rfl⟩ := Nat.exists_eq_succ_of_ne_zero htries
  obtain ⟨tries, htf⟩ := Nat.exists_eq_succ_of_ne_zero htf
  unfold pushExchange
  rw [htf]
  unfold pushFlowLoop pushDataLoop
  -- the FLOW header is acknowledged
  refine may_bind (may_enter (may_conf (may_bind (may_pushHeader (may_ite_neg (fun h => h rfl) (may_bind ?_))))))
  refine may_pullRecvHeader fun tr recv hack => may_ite_neg (fun h => h rfl) (may_ite_pos hack ?_)
  refine may_ite_neg (fun h => h rfl) (may_ite_neg (Nat.succ_ne_zero _) ?_)
  -- so is the chunk
  refine may_bind (may_enter (may_conf (may_bind ?_)))
  have hpos (h : (chunkContext s.conf).chunkSize ≠ 0) : 0 < s.conf.segsize := by
    rw [hseg]
    exact segsizeOf_pos h
  obtain ⟨tr', s', stat, hrun, rfl, hfile⟩ :=
    (may_pushChunkData s.conf.dataSock (s := { s with phase := .data }) s.conf.tftData hseek hpos).run
  refine .of_run hrun (may_ite_neg (fun h => h rfl) (may_bind ?_))
  refine may_pullRecvHeader fun tr recv hack => may_ite_neg (fun h => h rfl) (may_ite_pos hack ?_)
  exact may_ite_neg (fun h => h rfl) (may_ite_neg (Nat.succ_ne_zero _) ⟨rfl, hfile⟩)

theorem maySucceed_push (Γ : Libcrc) : MaySucceed (pushExchange Γ) :=
  fun _ _ p htries hready hseg => may_pushExchange Γ p htries hready.1 (hready.2 _) hseg

theorem matchFlow_pack (c : InitConfig) (crc : UInt32) : matchFlow c (convertFlowPacket (packFlowPacket
    (if c.seq = c.chcount then c.pchsize else c.chsize) c.seq crc)) = true := by
  unfold matchFlow
  by_cases h : c.seq = c.chcount <;> simp [h, convertFlowPacket, packFlowPacket]

/-- And so may what `pull_transfer` does with it. -/
theorem may_pullExchange (Γ : Libcrc) {trycount : Nat} {s : Proc} (p : Phase) (htries : trycount ≠ 0)
    (hseek : (mfseek s.conf.filec.mfile (chunkContext s.conf).startPos).1 = (chunkContext s.conf).startPos)
    (hseg : s.conf.segsize = segsizeOf s.conf) : (pullExchange Γ s.conf trycount { s with phase := p }).May (fun _ s' stat =>
      stat = .success ∧ SameFile s.conf.filec.mfile s'.conf.filec.mfile) := by
  obtain ⟨trycount, rfl⟩ := Nat.exists_eq_succ_of_ne_zero htries
  have hpos (h : (chunkContext s.conf).chunkSize ≠ 0) : 0 < s.conf.segsize := by
    rw [hseg]
    exact segsizeOf_pos h
  -- the chunk is chosen first, and the FLOW header carries its checksum
  obtain ⟨tr', s', stat, hrun, rfl, hfile⟩ :=
    (may_pullChunkData s.conf.dataSock (s := { s with phase := .data }) s.conf.tftData hseek hpos).run
  have hmatch := matchFlow_pack s.conf (calcChunkCrc32 Γ s'.conf.filec (chunkContext s.conf))
  have hcrc : (convertFlowPacket (packFlowPacket (if s.conf.seq = s.conf.chcount then s.conf.pchsize else s.conf.chsize)
      s.conf.seq (calcChunkCrc32 Γ s'.conf.filec (chunkContext s.conf)))).crc =
      calcChunkCrc32 Γ s'.conf.filec (chunkContext s.conf) := ntohl_htonl _
  generalize packFlowPacket _ _ _ = flow at hmatch hcrc
  unfold pullExchange pullFlowHeader pullDataLoop
  refine may_bind (may_bind (may_pullPacket (FlowPacket.length_bytes flow) fun tr => may_ite_neg (fun h => h rfl) ?_))
  refine may_ite_neg (fun h => h rfl) ?_
  rw [FlowPacket.ofBytes_bytes]
  refine may_ite_pos hmatch (may_bind (may_pushHeader (may_ite_neg (fun h => h rfl) (may_bind ?_))))
  refine may_enter (may_conf (may_bind (.of_run hrun (may_ite_neg (fun h => h rfl) (may_conf (may_ite_pos hcrc ?_))))))
  refine may_bind (may_pushHeader (may_ite_neg (fun h => h rfl) ?_))
  exact may_ite_neg (fun h => h rfl) (may_ite_neg (Nat.succ_ne_zero _) ⟨rfl, hfile⟩)

theorem maySucceed_pull (Γ : Libcrc) : MaySucceed (pullExchange Γ) :=
  fun _ _ p htries hready hseg => may_pullExchange Γ p htries (hready.2 _) hseg

/-- What an exchange leaves can go on to the next one. -/
theorem exchangeable_next {κ : InitConfig} {s : Proc} (h : Exchangeable κ) (hkept : Kept κ s)
    (hfile : SameFile κ.filec.mfile s.conf.filec.mfile) (seq : UInt32) : Exchangeable { s.conf with seq := seq } := by
  unfold Kept at hkept
  have htf : s.conf.tfTrycount = κ.tfTrycount := by
    rw [← hkept]
  have hstart (seq : UInt32) : (chunkContext { s.conf with seq := seq }).startPos = (chunkContext { κ with seq := seq }).startPos := by
    rw [← hkept]
    rfl
  refine ⟨?_, ?_⟩
  · change s.conf.tfTrycount ≠ 0
    rw [htf]
    exact h.1
  · intro seq'
    change (mfseek s.conf.filec.mfile (chunkContext { s.conf with seq := seq' }).startPos).1 =
      (chunkContext { s.conf with seq := seq' }).startPos
    rw [hstart, mfseek_congr hfile]
    exact h.2 seq'

/-- With `2 ^ 32 - 1` chunks no number of rounds is enough: the loop is left only when an exchange fails. -/
theorem not_complete_loop {exchange : InitConfig → Nat → Prog Status} {loop : Nat → Nat → Prog Status}
    (hloop : Loop exchange loop) (hexchange : Exchange exchange) (hmay : MaySucceed exchange) (rounds : Nat) :
    ∀ trycount (s : Proc), trycount ≠ 0 → s.conf.chcount = 4294967295 → s.conf.segsize = segsizeOf s.conf →
      Exchangeable s.conf → ¬(loop rounds trycount s).Complete := by
  -- induction on the rounds: no value of `seq` is past `chcount`
  induction rounds with
  | zero =>
    intro trycount s _ _ _ _
    rw [hloop.zero]
    exact fun h => h
  | succ rounds ih =>
    intro trycount s htries hcount hseg hready
    have hgo : s.conf.seq ≤ s.conf.chcount := by
      rw [hcount]
      exact UInt32.le_iff_toNat_le.2 (Nat.le_of_lt_succ s.conf.seq.toNat_lt)
    obtain ⟨p, hround⟩ := hloop.round rounds trycount s hgo
    rw [hround]
    have hkeeps := (hexchange.keeps s.conf trycount s.conf).after (s := { s with phase := p }) (kept_self s)
    obtain ⟨tr, s₁, stat, hrun, ⟨rfl, hfile⟩, hkept, -⟩ := ((hmay trycount s p htries hready hseg).and_after hkeeps).run
    refine Tree.not_complete_bind (.of_run hrun ?_)
    refine ih s.conf.tfTrycount { s₁ with conf := { s₁.conf with seq := s₁.conf.seq + 1 } } hready.1 ?_ ?_
      (exchangeable_next hready hkept hfile _)
    · exact hkept.chcount.trans hcount
    · rw [hkept.segsizeOf_next, ← hseg]
      exact hkept.segsize

/-- The first round of `push_transfer` enters the phase of the FLOW headers, as the round itself does. -/
theorem pushTransfer_eq (Γ : Libcrc) (rounds : Nat) (s : Proc) :
    pushTransfer Γ rounds s = pushTransferLoop Γ rounds s.conf.tfTrycount { s with phase := .flow } := rfl

theorem pullTransfer_eq (Γ : Libcrc) (rounds : Nat) (s : Proc) :
    pullTransfer Γ rounds s = pullTransferLoop Γ rounds s.conf.tfTrycount s := rfl

/-- Both loops end after their chunks when the count can be passed. -/
theorem endsAfterChunks_of_loop {exchange : InitConfig → Nat → Prog Status} {loop : Nat → Nat → Prog Status}
    (hloop : Loop exchange loop) (hexchange : Exchange exchange) {transfer : Nat → Prog Status} {s : Proc} {p : Phase}
    (heq : ∀ rounds, transfer rounds (beginTransfer s) = loop rounds s.conf.tfTrycount { beginTransfer s with phase := p })
    (hcount : s.conf.chcount ≠ 4294967295) : EndsAfterChunks transfer (beginTransfer s) := by
  have hn : s.conf.chcount.toNat + 1 < 2 ^ 32 := by
    have hlt := s.conf.chcount.toNat_lt
    have hne : s.conf.chcount.toNat ≠ 4294967295 := fun h => hcount (UInt32.toNat_inj.1 h)
    omega
  constructor
  · intro rounds hrounds
    rw [heq]
    exact complete_loop hloop hexchange hn rounds _ _ rfl (Nat.le_add_left 1 _) (Nat.succ_lt_succ hrounds) rfl
  · intro rounds tr s' hrun
    rw [heq] at hrun
    exact Tree.after_iff.1 (after_loop hloop hexchange hn rounds _ 0 { beginTransfer s with phase := p } rfl rfl (Nat.zero_le _))
      _ _ _ hrun rfl

/-- Neither ends when it cannot be passed and the exchanges can succeed. -/
theorem not_endsAfterChunks_of_loop {exchange : InitConfig → Nat → Prog Status} {loop : Nat → Nat → Prog Status}
    (hloop : Loop exchange loop) (hexchange : Exchange exchange) (hmay : MaySucceed exchange) {transfer : Nat → Prog Status}
    {s : Proc} {p : Phase}
    (heq : ∀ rounds, transfer rounds (beginTransfer s) = loop rounds s.conf.tfTrycount { beginTransfer s with phase := p })
    (hcount : s.conf.chcount = 4294967295) (hready : Exchangeable s.conf) : ¬EndsAfterChunks transfer (beginTransfer s) := by
  rintro ⟨hcomplete, -⟩
  have := hcomplete _ (Nat.lt_succ_self _)
  rw [heq] at this
  exact not_complete_loop hloop hexchange hmay _ _ { beginTransfer s with phase := p } hready.1 hcount rfl hready this

end LoopsAux

open LoopsAux in
/-- Both transfer loops leave after exactly `chcount` exchanges, with each number from `1` to `chcount` used once in increasing order
and `seq` one past `chcount`, whenever there are not `2 ^ 32 - 1` chunks. When there are, and nothing on the side of the loop keeps
the exchanges from succeeding, neither loop comes to an end. -/
theorem transfer_ends_iff (Γ : Libcrc) (s : Proc) :
    (s.conf.chcount ≠ 4294967295 →
      EndsAfterChunks (pushTransfer Γ) (beginTransfer s) ∧ EndsAfterChunks (pullTransfer Γ) (beginTransfer s)) ∧
    (s.conf.chcount = 4294967295 → Exchangeable s.conf →
      ¬EndsAfterChunks (pushTransfer Γ) (beginTransfer s) ∧ ¬EndsAfterChunks (pullTransfer Γ) (beginTransfer s)) := by
  have hpush (rounds : Nat) : pushTransfer Γ rounds (beginTransfer s) =
      pushTransferLoop Γ rounds s.conf.tfTrycount { beginTransfer s with phase := .flow } := pushTransfer_eq Γ rounds _
  have hpull (rounds : Nat) : pullTransfer Γ rounds (beginTransfer s) =
      pullTransferLoop Γ rounds s.conf.tfTrycount { beginTransfer s with phase := s.phase } := pullTransfer_eq Γ rounds _
  refine ⟨fun hcount => ⟨?_, ?_⟩, fun hcount hready => ⟨?_, ?_⟩⟩
  · exact endsAfterChunks_of_loop (loop_push Γ) (exchange_push Γ) hpush hcount
  · exact endsAfterChunks_of_loop (loop_pull Γ) (exchange_pull Γ) hpull hcount
  · exact not_endsAfterChunks_of_loop (loop_push Γ) (exchange_push Γ) (maySucceed_push Γ) hpush hcount hready
  · exact not_endsAfterChunks_of_loop (loop_pull Γ) (exchange_pull Γ) (maySucceed_pull Γ) hpull hcount hready


/-- The content of a file of zeros. -/
@[irreducible] def Sample.zeros (size : Nat) : Bytes := List.replicate size 0

/-- A file of `2 ^ 33 - 3` bytes in chunks of two, and one try. -/
def Sample.largest : InitConfig :=
  { Sample.receiver with chsize := 2, pchsize := 1, chcount := 4294967295, filec := { Sample.receiver.filec with
      size := 8589934589, mfile := { file := none, isOpen := true, size := 8589934589, pos := 0, buf := zeros 8589934589 } } }

namespace LoopsAux

theorem exchangeable_largest : Exchangeable Sample.largest := by
  refine ⟨Nat.one_ne_zero, fun seq => ?_⟩
  have hlt := UInt32.toNat_lt ((seq - 1) * (2 : UInt16).toUInt32)
  have hstart : (chunkContext { Sample.largest with seq := seq }).startPos = ((seq - 1) * (2 : UInt16).toUInt32).toNat := rfl
  rw [hstart]
  generalize ((seq - 1) * (2 : UInt16).toUInt32).toNat = pos at hlt
  have hpos : pos < 8589934589 := Nat.lt_trans hlt (by decide)
  simp [mfseek, Sample.largest, hpos]

end LoopsAux

open LoopsAux in
/-- This is what `calc_chunk_count` returns for such a file, and neither loop comes to an end. -/
theorem transfer_endless : calcChunkCount 8589934589 2 = (4294967295, 1) ∧
    ¬EndsAfterChunks (pushTransfer Sample.zero) (beginTransfer ⟨Sample.largest, .setup⟩) ∧
    ¬EndsAfterChunks (pullTransfer Sample.zero) (beginTransfer ⟨Sample.largest, .setup⟩) := by
  refine ⟨by decide +kernel, ?_, ?_⟩
  · exact not_endsAfterChunks_of_loop (loop_push _) (exchange_push _) (maySucceed_push _) (fun _ => pushTransfer_eq _ _ _) rfl
      exchangeable_largest
  · exact not_endsAfterChunks_of_loop (loop_pull _) (exchange_pull _) (maySucceed_pull _) (fun _ => pullTransfer_eq _ _ _) rfl
      exchangeable_largest

end RufShare
