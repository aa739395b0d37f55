import RufShare.Theorems.Loops

/-!
# Enough rounds

A transfer that is allowed two rounds more than there are chunks is not cut. The number of chunks is the one in `conf->chcount` while
the transfer is under way: the sender has counted it, and the receiver has taken it from the offer.
-/

namespace RufShare

open Resumption LoopsAux

theorem total_createFile (path : Bytes) (size : Nat) : Total (createFile path size) := by
  unfold createFile
  refine (Total.syscall _).bind fun opened => ?_
  cases opened with
  | none => exact .pure _
  | some file =>
    refine .ite ((Total.syscall _).bind fun _ => .pure _) ((Total.syscall _).bind fun info => ?_)
    cases info with
    | none => exact (Total.syscall _).bind fun _ => .pure _
    | some avail =>
      refine .ite ((Total.syscall _).bind fun _ => .pure _) ((Total.syscall _).bind fun truncated => ?_)
      exact .ite ((Total.syscall _).bind fun _ => .pure _) (.pure _)

theorem total_mfopen (path : Bytes) (mode : FopenMode) : Total (mfopen path mode) := by
  unfold mfopen
  refine (Total.syscall _).bind fun opened => ?_
  cases opened with
  | none => exact .pure _
  | some file =>
    refine (Total.syscall _).bind fun info => ?_
    cases info with
    | none => exact (Total.syscall _).bind fun _ => .pure _
    | some stSize =>
      refine (Total.syscall _).bind fun mapped => ?_
      cases mapped with
      | none => exact (Total.syscall _).bind fun _ => .pure _
      | some buf => exact .pure _

theorem total_startFileStream (path : Bytes) : Total (startFileStream path .mwr) := by
  unfold startFileStream prepareFile
  refine (Total.conf.bind fun c => total_createFile path _).bind fun stat => .ite (.pure _) ?_
  refine (total_mfopen path _).bind fun mfile => .ite (.pure _) ((Total.setConf _).bind fun _ => ?_)
  cases extractFileName path (path.length + 1) with
  | none => exact .pure _
  | some filename => exact (Total.setConf _).bind fun _ => .pure _

theorem total_pullSendHeader (sock : Sockfd) (args : SendArgs) (timeout : Int) : Total (pullSendHeader sock args timeout) := by
  unfold pullSendHeader
  refine (total_pullPacket sock _ timeout).bind fun got => .ite (.pure _) ?_
  exact (total_pullTcpData sock _ _).bind fun info => .ite (.pure _) (.pure _)

theorem total_pullHandshake (garbage : SendArgs) : Total (pullHandshake garbage) := by
  unfold pullHandshake
  refine (Total.enter _).bind fun _ => Total.conf.bind fun c => (total_pullSendHeader _ _ _).bind fun got => ?_
  refine .ite (.pure _) (.ite (total_pushHeader _ _ _) ((Total.setConf _).bind fun _ => Total.conf.bind fun c => ?_))
  refine (total_startFileStream _).bind fun made => (total_pushHeader _ _ _).bind fun stat => .ite (.pure _) ?_
  exact (Total.setConf _).bind fun _ => .pure _

theorem total_pushHandshake : Total pushHandshake := by
  unfold pushHandshake
  refine (Total.enter _).bind fun _ => (Total.setConf _).bind fun _ => Total.conf.bind fun c => ?_
  refine (total_pushHeader _ _ _).bind fun stat => .ite (.pure _) ?_
  refine (total_pullRecvHeader _ _ _).bind fun got => .ite (.pure _) ?_
  exact (Total.setConf _).bind fun _ => .pure _

theorem total_initUdpSocket (sock : Sockfd) (srcIp dstIp : Bytes) (srcPort dstPort : UInt16) (broadcast : Bool) :
    Total (initUdpSocket sock srcIp srcPort dstIp dstPort broadcast) := by
  unfold initUdpSocket
  cases inetPton srcIp with
  | none => exact .pure _
  | some src =>
    cases inetPton dstIp with
    | none => exact .pure _
    | some dst =>
      refine (Total.syscall _).bind fun opened => ?_
      cases opened with
      | none => exact .pure _
      | some sock =>
        refine (Total.ite (.syscall _) (.pure _)).bind fun ok => .ite (.pure _) ?_
        refine (Total.syscall _).bind fun ok => .ite (.pure _) ((Total.syscall _).bind fun ok => .ite (.pure _) ?_)
        exact (Total.syscall _).bind fun ok => .ite (.pure _) (.pure _)

theorem total_startData : Total startData := by
  unfold startData
  refine Total.conf.bind fun c => .ite (.pure _) ((total_initUdpSocket _ _ _ _ _ _).bind fun got => ?_)
  exact (Total.setConf _).bind fun _ => .pure _

theorem total_pushVerification (Γ : Libcrc) : Total (pushVerification Γ) := by
  unfold pushVerification
  refine (Total.enter _).bind fun _ => Total.conf.bind fun c => ?_
  refine (total_pushHeader _ _ _).bind fun stat => .ite (.pure _) ?_
  exact (total_pullRecvHeader _ _ _).bind fun got => .ite (.pure _) (.pure _)

theorem total_pullVerification (Γ : Libcrc) (garbage : SendArgs) : Total (pullVerification Γ garbage) := by
  unfold pullVerification
  refine (Total.enter _).bind fun _ => Total.conf.bind fun c => (Total.syscall _).bind fun created => .ite (.pure _) ?_
  refine (total_pullSendHeader _ _ _).bind fun got => .ite (.pure _) ?_
  refine (Total.syscall _).bind fun joined => .ite (.pure _) ?_
  exact (total_pushHeader _ _ _).bind fun stat => .ite (.pure _) (.pure _)

/-- A call of a transfer of at most `n` chunks, or a call outside of one. -/
def FewChunks (n : Nat) (e : Event) : Prop := e.state.phase = .flow → e.state.conf.chcount.toNat ≤ n

section

variable {n rounds : Nat} {s : Proc}

/-- Nothing is asked after a call of a transfer of more chunks. -/
theorem uncut_of_many {α : Type} {t : Tree α} (hphase : t.state.phase = .flow) (hmany : ¬t.state.conf.chcount.toNat ≤ n)
    (hcut : ∀ s, t ≠ .cut s) : t.Uncut (FewChunks n) := by
  cases t with
  | ret s a => trivial
  | cut s => exact absurd rfl (hcut s)
  | call s c k => exact fun r hr => absurd (hr hphase) hmany

/-- A loop that is left after its last chunk is not cut. -/
theorem uncut_loop {exchange : InitConfig → Nat → Prog Status} {loop : Nat → Nat → Prog Status} (hloop : Loop exchange loop)
    (hexchange : Exchange exchange) {trycount : Nat} (hn : n + 1 < 2 ^ 32) (hrounds : n + 1 < rounds)
    (hseg : s.conf.segsize = segsizeOf s.conf)
    (hmany : ∀ rounds, s.conf.seq ≤ s.conf.chcount → ¬s.conf.chcount.toNat ≤ n →
      (loop (rounds + 1) trycount s).Uncut (FewChunks n)) : (loop rounds trycount s).Uncut (FewChunks n) := by
  obtain ⟨rounds, rfl⟩ := Nat.exists_eq_succ_of_ne_zero (show rounds ≠ 0 by omega)
  by_cases hgo : s.conf.seq ≤ s.conf.chcount
  · by_cases hle : s.conf.chcount.toNat ≤ n
    · have hseq := UInt32.le_iff_toNat_le.1 hgo
      exact (complete_loop hloop hexchange (by omega) _ trycount s rfl (by omega) (by omega) hseg).uncut
    · exact hmany rounds hgo hle
  · obtain ⟨p, hleave⟩ := hloop.leave rounds trycount s hgo
    rw [hleave]
    trivial

theorem uncut_pushTransfer (Γ : Libcrc) (hn : n + 1 < 2 ^ 32) (hrounds : n + 1 < rounds) (hseg : s.conf.segsize = segsizeOf s.conf) :
    (pushTransfer Γ rounds s).Uncut (FewChunks n) := by
  rw [pushTransfer_eq]
  refine uncut_loop (loop_push Γ) (exchange_push Γ) hn hrounds hseg fun rounds hgo hmany => ?_
  rw [pushTransferLoop_round Γ rounds s.conf.tfTrycount { s with phase := .flow } hgo]
  cases s.conf.tfTrycount with
  | zero => trivial
  | succ trycount =>
    refine uncut_of_many ?_ ?_ ?_
    · rfl
    · exact hmany
    · exact fun _ => nofun

theorem uncut_pullTransfer (Γ : Libcrc) (hn : n + 1 < 2 ^ 32) (hrounds : n + 1 < rounds) (hseg : s.conf.segsize = segsizeOf s.conf) :
    (pullTransfer Γ rounds s).Uncut (FewChunks n) := by
  rw [pullTransfer_eq]
  refine uncut_loop (loop_pull Γ) (exchange_pull Γ) hn hrounds hseg fun rounds hgo hmany => ?_
  rw [pullTransferLoop_round Γ rounds s.conf.tfTrycount s hgo]
  refine uncut_of_many ?_ ?_ ?_
  · rfl
  · exact hmany
  · exact fun _ => nofun

theorem uncut_ite {α : Type} {P : Event → Prop} {c : Prop} [Decidable c] {x y : Prog α} (hx : (x s).Uncut P) (hy : (y s).Uncut P) :
    ((if c then x else y) s).Uncut P := by
  split
  · exact hx
  · exact hy

/-- A phase that makes no rounds and what follows it. -/
theorem uncut_check {x y : Prog Status} (hx : Total x) (hy : ∀ s, (y s).Uncut (FewChunks n)) :
    ((x >>= fun stat => if stat ≠ .success then pure stat else y) s).Uncut (FewChunks n) := by
  refine (hx s).uncut.bind (Tree.under_iff.2 (Tree.after_iff.2 fun tr s stat _ _ => ?_))
  exact uncut_ite trivial (hy s)

/-- The transfer between the two phases. -/
theorem uncut_transfer {transfer verification : Prog Status} (hverification : Total verification)
    (htransfer : ∀ s : Proc, s.conf.segsize = segsizeOf s.conf → (transfer s).Uncut (FewChunks n)) :
    ((do
      setSegsize
      let stat ← transfer
      if stat ≠ .success then return stat
      verification : Prog Status) s).Uncut (FewChunks n) := by
  refine (htransfer _ rfl).bind (Tree.under_iff.2 (Tree.after_iff.2 fun tr s stat _ _ => ?_))
  exact uncut_ite trivial (hverification s).uncut

theorem uncut_pushPhases (Γ : Libcrc) (hn : n + 1 < 2 ^ 32) (hrounds : n + 1 < rounds) :
    (pushPhases Γ rounds startData s).Uncut (FewChunks n) :=
  uncut_check total_pushHandshake fun _ => uncut_check total_startData fun _ =>
    uncut_transfer (total_pushVerification Γ) fun _ => uncut_pushTransfer Γ hn hrounds

theorem uncut_pullPhases (Γ : Libcrc) (garbage : SendArgs) (hn : n + 1 < 2 ^ 32) (hrounds : n + 1 < rounds) :
    (pullPhases Γ garbage rounds startData s).Uncut (FewChunks n) :=
  uncut_check (total_pullHandshake garbage) fun _ => uncut_check total_startData fun _ =>
    uncut_transfer (total_pullVerification Γ garbage) fun _ => uncut_pullTransfer Γ hn hrounds

end

end RufShare
