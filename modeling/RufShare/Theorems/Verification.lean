import RufShare.Lemmas.Within

/-!
# What the receiver's success says about its file

`pull_verification` compares the checksum of the file with the one in the sender's SEND header, answers with the outcome, and
returns the status of that answer: the `FAILCRC` it has assigned is overwritten. The receiver's status is therefore sound in
exactly the runs that, after a mismatch, fail for some other reason.
-/

namespace RufShare

open Resumption

/-- The SEND packet that `pull_verification` reads with this call, if it does. -/
def verificationPacket : Event → Option SendPacket
  | ⟨s, .recv .stream _ size false, r⟩ =>
    let r : Option { b : Bytes // b.length ≤ size } := r
    match r with
    | some b =>
      if s.phase = .verification ∧ size = PacketType.size .send ∧ b.1.length = size then
        some (convertSendPacket (.ofBytes b.1))
      else none
    | none => none
  | _ => none

/-- The packet that this call pushes on the control channel, if it does: the receiver pushes RECV packets only. -/
def pushedRecv : Event → Option RecvPacket
  | ⟨_, .send .stream _ buf, _⟩ => some (convertRecvPacket (.ofBytes buf))
  | _ => none

/-- The receiver's file is the one the sender vouched for: its checksum is that of the SEND header pulled in the verification, and
the last RECV header pushed says so. -/
def VerifiedFile (Γ : Libcrc) (tr : List Event) (s : Proc) : Prop :=
  ∃ send recv, (tr.filterMap verificationPacket).getLast? = some send ∧ send.crc = calcFileCrc16 Γ s.conf.filec ∧
    (tr.filterMap pushedRecv).getLast? = some recv ∧ recv.ack = 1

/-- After a SEND header whose checksum is not the file's, the file turns out not to be open or a call fails. -/
def MismatchStopped (Γ : Libcrc) (tr : List Event) : Prop :=
  ∀ tr₁ e tr₂ send, tr = tr₁ ++ e :: tr₂ → verificationPacket e = some send →
    send.crc ≠ calcFileCrc16 Γ e.state.conf.filec →
    e.state.conf.filec.mfile.isOpen = false ∨ e.state.conf.filec.mfile.file = none ∨ ∃ e' ∈ tr₂, ¬Succeeded e'

namespace VerificationAux

/-! ## Runs of the verification and of the closing -/

/-- A call that pushes reads no packet. -/
theorem verificationPacket_of_pushes {e : Event} (h : e.call.Pushes) : verificationPacket e = none := by
  unfold verificationPacket
  split
  · exact h.elim
  · rfl

/-- A run that leaves the state as it is, reads no packet of the verification, pushes nothing, and succeeds exactly when `ready`
holds and its calls succeed. -/
def Quiet (ready : Prop) (s : Proc) (tr : List Event) (s' : Proc) (stat : Status) : Prop :=
  s' = s ∧ tr.filterMap verificationPacket = [] ∧ tr.filterMap pushedRecv = [] ∧
    (stat = .success ↔ ready ∧ ∀ e ∈ tr, Succeeded e)

theorem Quiet.check {x y : Prog Status} {p q : Prop} {s : Proc} (hx : (x s).After (Quiet p s))
    (hy : (y s).After (Quiet q s)) :
    ((x >>= fun stat => if stat ≠ .success then pure stat else y) s).After (Quiet (p ∧ q) s) := by
  refine after_check hx ?_ ?_
  · intro tr s' stat h hne
    obtain ⟨rfl, h₁, h₂, h₃⟩ := h
    exact ⟨rfl, h₁, h₂, fun h => absurd h hne, fun h => absurd (h₃.2 ⟨h.1.1, h.2⟩) hne⟩
  · intro tr s₁ h
    obtain ⟨rfl, h₁, h₂, h₃⟩ := h
    refine hy.mono ?_
    intro tr' s' stat h'
    obtain ⟨rfl, h₁', h₂', h₃'⟩ := h'
    obtain ⟨hp, hall⟩ := h₃.1 rfl
    refine ⟨rfl, by simp only [List.filterMap_append, h₁, h₁', List.append_nil],
      by simp only [List.filterMap_append, h₂, h₂', List.append_nil], ?_⟩
    rw [h₃', List.forall_mem_append]
    exact ⟨fun h => ⟨⟨hp, h.1⟩, hall, h.2⟩, fun h => ⟨h.1.2, h.2.2⟩⟩

/-- Closing a socket. -/
theorem after_closeSocket (sock : Sockfd) (s : Proc) : (closeSocket sock s).After (Quiet True s) := by
  unfold closeSocket
  refine after_syscall fun ok => ?_
  cases ok with
  | false => exact ⟨rfl, rfl, rfl, by simp [Succeeded, Call.Succeeds]⟩
  | true => exact ⟨rfl, rfl, rfl, by simp [Succeeded, Call.Succeeds]⟩

/-- Unmapping and closing the file. -/
theorem after_endFileStream (s : Proc) :
    (endFileStream s).After (Quiet (s.conf.filec.mfile.isOpen = true ∧ s.conf.filec.mfile.file ≠ none) s) := by
  unfold endFileStream mfclose Quiet
  simp only [Prog.bind_apply, conf_apply, Tree.bind_ret]
  cases ho : s.conf.filec.mfile.isOpen with
  | false =>
    cases hf : s.conf.filec.mfile.file with
    | none => simp [Tree.After]
    | some file => simp [Tree.After, verificationPacket, pushedRecv]
  | true =>
    intro unmapped
    cases hf : s.conf.filec.mfile.file with
    | none => simp [Tree.After, verificationPacket, pushedRecv]
    | some file =>
      intro closed
      cases unmapped <;> cases closed <;> simp [Tree.After, Succeeded, Call.Succeeds, verificationPacket, pushedRecv]

/-- Reading a number of bytes that is not the size of the packet. -/
theorem after_pullTcpData (sock : Sockfd) (size : Nat) (s : Proc) (hs : size ≠ PacketType.size .send) :
    (pullTcpData sock size false s).After (fun tr s' got => s' = s ∧ tr.filterMap verificationPacket = [] ∧
      tr.filterMap pushedRecv = [] ∧ (got.1 = .success ↔ ∀ e ∈ tr, Succeeded e)) := by
  unfold pullTcpData
  intro received
  cases received with
  | none => simp [Tree.After, Succeeded, Call.Succeeds, verificationPacket, pushedRecv]
  | some b =>
    by_cases hb : b.1.length < size
    · simp [Tree.After, Succeeded, Call.Succeeds, verificationPacket, pushedRecv, hs, hb]
    · simp [Tree.After, Succeeded, Call.Succeeds, verificationPacket, pushedRecv, hs, hb]
      omega

/-- A call that only looks at a socket reads no packet. -/
theorem verificationPacket_of_looks {e : Event} (h : e.call.Looks) : verificationPacket e = none := by
  unfold verificationPacket
  split
  · exact h.elim
  · rfl

/-- Pulling the SEND header of the verification: it fails before it has read the packet, or it reads it and then succeeds exactly
when the rest of its calls do. -/
theorem after_pullSendHeader (sock : Sockfd) (args : SendArgs) (timeout : Int) (s : Proc) (hs : s.phase = .verification) :
    (pullSendHeader sock args timeout s).After (fun tr s' got => s' = s ∧
      (got.1 ≠ .success ∧ tr.filterMap verificationPacket = [] ∨
        ∃ tr₁ e tr₂ send, tr = tr₁ ++ e :: tr₂ ∧ verificationPacket e = some send ∧ e.state = s ∧
          tr₁.filterMap verificationPacket = [] ∧ tr₂.filterMap verificationPacket = [] ∧
          (got.1 = .success ↔ ∀ e' ∈ tr₂, Succeeded e') ∧ (got.1 = .success → got.2.packet = send))) := by
  unfold pullSendHeader
  refine after_bind_of (P := fun tr s' got => s' = s ∧ (got.1 ≠ .success ∧ tr.filterMap verificationPacket = [] ∨
    ∃ tr₁ e, tr = tr₁ ++ [e] ∧ verificationPacket e = some (convertSendPacket (.ofBytes got.2)) ∧ e.state = s ∧
      tr₁.filterMap verificationPacket = [] ∧ got.1 = .success)) ?_ ?_
  · unfold pullPacket
    refine after_bind_of (after_pullType sock .send timeout s) ?_
    intro tr s₁ stat h
    obtain ⟨rfl, hlooks⟩ := h
    have htr := List.filterMap_eq_nil_iff.2 (fun e he => verificationPacket_of_looks (hlooks e he))
    refine after_ite (fun hne => ⟨rfl, .inl ⟨hne, by simpa using htr⟩⟩) (fun _ => ?_)
    unfold pullTcpData
    refine after_syscall fun received => ?_
    cases received with
    | none => exact ⟨rfl, .inl ⟨by simp, by simpa [verificationPacket] using htr⟩⟩
    | some b =>
      refine after_ite (fun hb => ?_) (fun hb => ?_)
      · have : b.1.length ≠ PacketType.size .send := by omega
        exact ⟨rfl, .inl ⟨by simp, by simpa [verificationPacket, this] using htr⟩⟩
      · have : b.1.length = PacketType.size .send := by
          have := b.2
          omega
        exact ⟨rfl, .inr ⟨tr, _, rfl, by simp [verificationPacket, hs, this], rfl, htr, rfl⟩⟩
  · intro tr s₁ got h
    obtain ⟨rfl, h⟩ := h
    rcases h with ⟨hne, htr⟩ | ⟨tr₁, e, rfl, he, hes, htr₁, hgot⟩
    · refine after_ite (fun _ => ⟨rfl, .inl ⟨hne, by simpa using htr⟩⟩) (fun h => absurd hne h)
    · refine after_ite (fun hne => absurd hgot hne) (fun _ => ?_)
      refine after_bind_of (after_pullTcpData sock infostrSize s₁ (by decide)) ?_
      intro tr₂ s₂ got₂ h₂
      obtain ⟨rfl, hvp, _, hok⟩ := h₂
      refine after_ite (fun hne => ⟨rfl, .inr ?_⟩) (fun _ => ⟨rfl, .inr ?_⟩)
      · exact ⟨tr₁, e, tr₂, _, by simp, he, hes, htr₁, hvp, hok, fun h => absurd h hne⟩
      · exact ⟨tr₁, e, tr₂, _, by simp, he, hes, htr₁, hvp, hok, fun _ => rfl⟩

/-- How a run that ends with the verification looks: it fails before it has read the SEND packet, or it reads it, keeps the
configuration, succeeds exactly when `ready` held there and the rest of its calls succeed, and has then pushed the verdict. -/
def Outcome (Γ : Libcrc) (ready : InitConfig → Prop) (tr : List Event) (s : Proc) (stat : Status) : Prop :=
  stat ≠ .success ∧ tr.filterMap verificationPacket = [] ∨
    ∃ tr₁ e tr₂ send, tr = tr₁ ++ e :: tr₂ ∧ verificationPacket e = some send ∧ e.state.conf = s.conf ∧
      tr₁.filterMap verificationPacket = [] ∧ tr₂.filterMap verificationPacket = [] ∧
      (stat = .success ↔ ready s.conf ∧ ∀ e' ∈ tr₂, Succeeded e') ∧
      (stat = .success → ∃ recv, (tr₂.filterMap pushedRecv).getLast? = some recv ∧
        (recv.ack = 1 ↔ send.crc = calcFileCrc16 Γ s.conf.filec))

theorem after_pullVerification (Γ : Libcrc) (garbage : SendArgs) (s : Proc) :
    (pullVerification Γ garbage s).After (Outcome Γ (fun _ => True)) := by
  unfold pullVerification
  refine after_enter (after_conf (after_syscall fun created => after_ite (fun _ => ?_) (fun _ => ?_)))
  · exact .inl ⟨by simp, rfl⟩
  refine after_bind_of (after_pullSendHeader _ garbage _ { s with phase := .verification } rfl) ?_
  intro tr s₁ got h
  obtain ⟨rfl, h⟩ := h
  rcases h with ⟨hne, hvp⟩ | ⟨tr₁, e, tr₂, send, rfl, hsend, he, h₁, h₂, hok, hpkt⟩
  · refine after_ite (fun _ => .inl ⟨hne, by simpa [verificationPacket] using hvp⟩) (fun h => absurd hne h)
  have h₁' : ((⟨{ s with phase := .verification }, .pthreadCreate, created⟩ :: tr₁) : List Event).filterMap
      verificationPacket = [] := by simpa [verificationPacket] using h₁
  refine after_ite (fun hne => ?_) (fun hgot => ?_)
  · exact .inr ⟨_ :: tr₁, e, tr₂, send, by simp, hsend, by rw [he], h₁', h₂, by simpa using hok, fun h => absurd h hne⟩
  have hgot : got.1 = .success := Decidable.not_not.1 hgot
  refine after_syscall fun joined => ?_
  cases joined with
  | false =>
    refine .inr ⟨_ :: tr₁, e, tr₂ ++ [⟨{ s with phase := .verification }, .pthreadJoin, false⟩], send, by simp, hsend,
      by rw [he], h₁', by simpa [verificationPacket] using h₂, ?_, fun h => absurd h (by simp)⟩
    simp [Succeeded, Call.Succeeds]
  | true =>
    refine after_bind_of (after_pushHeader _ _ _ _) ?_
    intro tr₃ s₃ stat h₃
    obtain ⟨rfl, hpushes, hok₃, hpush⟩ := h₃
    have hvp₃ := List.filterMap_eq_nil_iff.2 (fun e he => verificationPacket_of_pushes (hpushes e he))
    have hrest : ((tr₂ ++ ⟨{ s with phase := .verification }, .pthreadJoin, true⟩ :: tr₃) : List Event).filterMap
        verificationPacket = [] := by simpa [verificationPacket, h₂] using hvp₃
    have hstat : stat = .success ↔ True ∧
        ∀ e' ∈ tr₂ ++ ⟨{ s with phase := .verification }, .pthreadJoin, true⟩ :: tr₃, Succeeded e' := by
      have hjoin : Succeeded ⟨{ s with phase := .verification }, .pthreadJoin, true⟩ := rfl
      simp only [List.forall_mem_append, List.forall_mem_cons, hjoin, ← hok, ← hok₃, hgot, true_and]
    refine after_ite (fun hne => ?_) (fun _ => ?_)
    · exact .inr ⟨_ :: tr₁, e, _, send, by simp, hsend, by rw [he], h₁', hrest, hstat, fun h => absurd h hne⟩
    · refine .inr ⟨_ :: tr₁, e, _, send, by simp, hsend, by rw [he], h₁', hrest, hstat, fun h => ?_⟩
      obtain ⟨n, rfl⟩ := hpush h
      refine ⟨_, by rw [List.filterMap_append]; exact List.getLast?_concat, ?_⟩
      rw [hpkt hgot]
      split <;> simp [*, packRecvPacket, convertRecvPacket]

/-- The part of `start_puller` after the verification. -/
theorem after_pullClosing (s : Proc) :
    (pullClosing s).After (Quiet ((s.conf.filec.mfile.isOpen = true ∧ s.conf.filec.mfile.file ≠ none) ∧ True ∧ True ∧ True)
      { s with phase := .closing }) := by
  unfold pullClosing
  refine after_enter (Quiet.check (after_endFileStream _) (after_conf ?_))
  exact Quiet.check (after_closeSocket _ _) (Quiet.check (after_closeSocket _ _) (after_closeSocket _ _))

/-- Calls made before the verification do not change what its outcome says. -/
theorem Outcome.prepend {Γ : Libcrc} {ready : InitConfig → Prop} {tr₀ tr : List Event} {s : Proc} {stat : Status}
    (h₀ : tr₀.filterMap verificationPacket = []) (h : Outcome Γ ready tr s stat) : Outcome Γ ready (tr₀ ++ tr) s stat := by
  rcases h with ⟨hne, hvp⟩ | ⟨tr₁, e, tr₂, send, rfl, hsend, he, h₁, h₂, hok, hlast⟩
  · exact .inl ⟨hne, by rw [List.filterMap_append, h₀, hvp]; rfl⟩
  · exact .inr ⟨tr₀ ++ tr₁, e, tr₂, send, by simp, hsend, he, by rw [List.filterMap_append, h₀, h₁]; rfl, h₂, hok, hlast⟩

/-- The closing after a verification that succeeded. -/
theorem Outcome.close {Γ : Libcrc} {tr tr' : List Event} {s s' : Proc} {ready : InitConfig → Prop} {stat : Status}
    (h : Outcome Γ (fun _ => True) tr s .success) (h' : Quiet (ready s.conf) { s with phase := .closing } tr' s' stat) :
    Outcome Γ ready (tr ++ tr') s' stat := by
  obtain ⟨rfl, hvp, hpush, hstat⟩ := h'
  rcases h with ⟨hne, _⟩ | ⟨tr₁, e, tr₂, send, rfl, hsend, he, h₁, h₂, hok, hlast⟩
  · exact absurd rfl hne
  refine .inr ⟨tr₁, e, tr₂ ++ tr', send, by simp, hsend, he, h₁, by rw [List.filterMap_append, h₂, hvp]; rfl, ?_, ?_⟩
  · rw [hstat, List.forall_mem_append]
    have hall := (hok.1 rfl).2
    exact ⟨fun h => ⟨h.1, hall, h.2⟩, fun h => ⟨h.1, h.2.2⟩⟩
  · intro _
    obtain ⟨recv, hrecv, hack⟩ := hlast rfl
    exact ⟨recv, by rw [List.filterMap_append, hpush, List.append_nil]; exact hrecv, hack⟩

/-- A call that is not made in the verification reads no packet of it. -/
theorem verificationPacket_of_phase {e : Event} (h : e.state.phase ≠ .verification) : verificationPacket e = none := by
  unfold verificationPacket
  split
  · rename_i s _ size r
    cases r with
    | none => rfl
    | some b => simp [show s.phase ≠ .verification from h]
  · rfl

/-- The states outside the verification. -/
def Before (s : Proc) : Prop := s.phase ≠ .verification

/-- A program that stays outside the verification reads no packet of it. -/
theorem after_of_within {α : Type} {x : Prog α} (hx : Within Before (fun s _ => Before s) x) {s : Proc} (hs : Before s) :
    (x s).After (fun tr s' _ => Before s' ∧ tr.filterMap verificationPacket = []) := by
  refine (hx.after hs).mono ?_
  intro tr s' _ h
  refine ⟨h.1, List.filterMap_eq_nil_iff.2 ?_⟩
  intro e he
  exact verificationPacket_of_phase (h.2 e he)

theorem after_pullPhases (Γ : Libcrc) (garbage : SendArgs) (rounds : Nat) {s : Proc} (hs : Before s) :
    (pullPhases Γ garbage rounds startData s).After (Outcome Γ (fun _ => True)) := by
  have hP : ∀ (s : Proc) (c : Call), Before s → c.Plain → Before s := fun _ _ h _ => h
  have hI : ∀ (s : Proc) (f : InitConfig → InitConfig), Before s → Before { s with conf := f s.conf } := fun _ _ h => h
  have hsteady : ∀ (s : Proc) (c : Call), Before s → c.Steady → Before s := fun _ _ h _ => h
  have hhand := within_pullHandshake hsteady (fun _ _ h => h) (fun _ _ h => h) (fun _ _ h => h) (fun _ _ h => h)
    (fun _ _ => by simp [Before]) garbage
  have hdata := within_startData hP hI (fun _ h => h) (fun _ _ _ _ h => h)
  have hinert : ∀ (s : Proc) (c : Call), Before s → c.Inert → Before s := fun _ _ h _ => h
  have htrans := within_pullTransfer hinert (fun _ _ _ h => h) (fun _ _ h => h) (fun _ _ => by simp [Before]) (fun _ _ => by simp [Before])
    Γ rounds
  unfold pullPhases setSegsize
  refine after_check (after_of_within hhand hs) (fun _ _ _ h hne => .inl ⟨hne, h.2⟩) ?_
  intro tr₁ s₁ h₁
  refine after_check (after_of_within hdata h₁.1)
    (fun _ _ _ h hne => Outcome.prepend h₁.2 (.inl ⟨hne, h.2⟩)) ?_
  intro tr₂ s₂ h₂
  refine after_setConf (after_check (after_of_within htrans (show Before _ from h₂.1)) ?_ ?_)
  · intro _ _ _ h hne
    exact Outcome.prepend h₁.2 (Outcome.prepend h₂.2 (.inl ⟨hne, h.2⟩))
  · intro tr₃ s₃ h₃
    refine (after_pullVerification Γ garbage s₃).mono ?_
    intro tr₄ s₄ stat h₄
    exact Outcome.prepend h₁.2 (Outcome.prepend h₂.2 (Outcome.prepend h₃.2 h₄))

theorem after_startPuller (Γ : Libcrc) (garbage : SendArgs) (rounds : Nat) (c : InitConfig) :
    (startPuller Γ garbage rounds ⟨c, .setup⟩).After
      (Outcome Γ (fun c => (c.filec.mfile.isOpen = true ∧ c.filec.mfile.file ≠ none) ∧ True ∧ True ∧ True)) := by
  have hP : ∀ (s : Proc) (c : Call), Before s → c.Plain → Before s := fun _ _ h _ => h
  have hI : ∀ (s : Proc) (f : InitConfig → InitConfig), Before s → Before { s with conf := f s.conf } := fun _ _ h => h
  have h₀ : Before ⟨c, .setup⟩ := by simp [Before]
  unfold startPuller
  refine after_check (after_of_within (within_startCntl hP hI) h₀) (fun _ _ _ h hne => .inl ⟨hne, h.2⟩) ?_
  intro tr₁ s₁ h₁
  refine after_check (after_of_within (within_acceptCntl hP hI _) h₁.1)
    (fun _ _ _ h hne => Outcome.prepend h₁.2 (.inl ⟨hne, h.2⟩)) ?_
  intro tr₂ s₂ h₂
  refine after_conf (after_check (after_of_within (within_closeSocket hP _) h₂.1) ?_ ?_)
  · intro _ _ _ h hne
    exact Outcome.prepend h₁.2 (Outcome.prepend h₂.2 (.inl ⟨hne, h.2⟩))
  intro tr₃ s₃ h₃
  refine after_check (after_pullPhases Γ garbage rounds h₃.1) ?_ ?_
  · intro tr s stat h hne
    refine Outcome.prepend h₁.2 (Outcome.prepend h₂.2 (Outcome.prepend h₃.2 ?_))
    rcases h with h | ⟨tr₁, e, tr₂, send, htr, hsend, he, hvp₁, hvp₂, hok, hlast⟩
    · exact .inl h
    · refine .inr ⟨tr₁, e, tr₂, send, htr, hsend, he, hvp₁, hvp₂, ?_, hlast⟩
      exact ⟨fun h => absurd h hne, fun h => absurd (hok.2 ⟨trivial, h.2⟩) hne⟩
  · intro tr₄ s₄ h₄
    refine (after_pullClosing s₄).mono ?_
    intro tr₅ s₅ stat h₅
    exact Outcome.prepend h₁.2 (Outcome.prepend h₂.2 (Outcome.prepend h₃.2 (h₄.close h₅)))

/-- A list with one element picked out by `f` is split there in one way only. -/
theorem split_unique {α β : Type} {f : α → Option β} {l₁ l₂ m₁ m₂ : List α} {a b : α} {y : β}
    (h : l₁ ++ a :: l₂ = m₁ ++ b :: m₂) (hb : f b = some y) (h₁ : l₁.filterMap f = [])
    (h₂ : l₂.filterMap f = []) : a = b ∧ l₂ = m₂ := by
  induction l₁ generalizing m₁ with
  | nil =>
    cases m₁ with
    | nil =>
      obtain ⟨rfl, rfl⟩ := List.cons.inj h
      exact ⟨rfl, rfl⟩
    | cons c m₁ =>
      obtain ⟨rfl, rfl⟩ := List.cons.inj h
      rw [List.filterMap_eq_nil_iff] at h₂
      have := h₂ b (by simp)
      rw [hb] at this
      nomatch this
  | cons c l₁ ih =>
    rw [List.filterMap_eq_nil_iff] at h₁
    cases m₁ with
    | nil =>
      obtain ⟨rfl, rfl⟩ := List.cons.inj h
      have := h₁ c (by simp)
      rw [hb] at this
      nomatch this
    | cons d m₁ =>
      have htail : l₁ ++ a :: l₂ = m₁ ++ b :: m₂ := (List.cons.inj h).2
      exact ih htail (List.filterMap_eq_nil_iff.2 fun e he => h₁ e (List.mem_cons_of_mem _ he))

end VerificationAux

open VerificationAux in
/-- Whatever the peer sends and however the calls turn out, the receiver's success is sound in exactly the runs that are stopped
after a mismatch: where the checksums differ and nothing else fails, `start_puller` returns `SUCCESS` all the same. -/
theorem startPuller_success_sound_iff (Γ : Libcrc) (garbage : SendArgs) (rounds : Nat) (c : InitConfig) (tr : List Event)
    (s : Proc) (stat : Status) (h : Run (startPuller Γ garbage rounds ⟨c, .setup⟩) tr s stat) :
    (stat = .success → VerifiedFile Γ tr s) ↔ MismatchStopped Γ tr := by
  have hout := Tree.after_iff.1 (after_startPuller Γ garbage rounds c) tr s stat h
  rcases hout with ⟨hne, hvp⟩ | ⟨tr₁, e, tr₂, send, rfl, hsend, he, h₁, h₂, hok, hlast⟩
  · refine ⟨fun _ => ?_, fun _ hs => absurd hs hne⟩
    intro tr₁ e tr₂ send htr hsend
    rw [List.filterMap_eq_nil_iff] at hvp
    have := hvp e (by simp [htr])
    rw [hsend] at this
    nomatch this
  have hlastSend : ((tr₁ ++ e :: tr₂).filterMap verificationPacket).getLast? = some send := by
    rw [List.filterMap_append, h₁, List.filterMap_cons_some hsend, h₂]
    rfl
  have hlastRecv {recv : RecvPacket} (hr : (tr₂.filterMap pushedRecv).getLast? = some recv) :
      ((tr₁ ++ e :: tr₂).filterMap pushedRecv).getLast? = some recv := by
    rw [List.append_cons, List.filterMap_append, List.getLast?_append, hr]
    rfl
  constructor
  · intro hv m₁ e' m₂ send' htr hsend' hcrc
    obtain ⟨rfl, rfl⟩ := split_unique htr hsend' h₁ h₂
    obtain rfl : send = send' := Option.some.inj (hsend.symm.trans hsend')
    rw [he] at hcrc ⊢
    by_cases hopen : s.conf.filec.mfile.isOpen = true
    case neg => exact .inl (Bool.eq_false_iff.2 hopen)
    by_cases hfile : s.conf.filec.mfile.file = none
    case pos => exact .inr (.inl hfile)
    by_cases hall : ∀ e' ∈ tr₂, Succeeded e'
    · obtain ⟨send', _, hs, hc, _⟩ := hv (hok.2 ⟨⟨⟨hopen, hfile⟩, trivial, trivial, trivial⟩, hall⟩)
      obtain rfl : send = send' := Option.some.inj (hlastSend.symm.trans hs)
      exact absurd hc hcrc
    · obtain ⟨e', h'⟩ := Classical.not_forall.1 hall
      obtain ⟨hmem, hfail⟩ := Classical.not_imp.1 h'
      exact .inr (.inr ⟨e', hmem, hfail⟩)
  · intro hstop hs
    obtain ⟨recv, hr, hack⟩ := hlast hs
    obtain ⟨⟨⟨hopen, hfile⟩, _⟩, hall⟩ := hok.1 hs
    by_cases hcrc : send.crc = calcFileCrc16 Γ s.conf.filec
    · exact ⟨send, recv, hlastSend, hcrc, hlastRecv hr, hack.2 hcrc⟩
    · rcases hstop tr₁ e tr₂ send rfl hsend (by rw [he]; exact hcrc) with h | h | ⟨e', hmem, hfail⟩
      · rw [he, hopen] at h
        nomatch h
      · rw [he] at h
        exact absurd h hfile
      · exact absurd (hall e' hmem) hfail

/-! ### A run that reports success over a mismatch -/

namespace MismatchRun

open Sample

/-- What a sender of one byte in one chunk pushes, with `crc` for the checksum of its file. -/
def stream (crc : UInt16) : Bytes :=
  (packSendPacket 2 1 1 0).bytes ++ packIntoInfostring addrs ++ (packFlowPacket 1 1 0).bytes ++
    (packSendPacket 2 1 1 crc).bytes ++ packIntoInfostring addrs

/-- The receiver against the sender with checksum `crc`. -/
def run (crc : UInt16) : List Event × Option (Proc × Status) :=
  play env (stream crc) (startPuller zero blank 2 ⟨receiver, .setup⟩)

theorem run_success (crc : UInt16) (h : (run crc).2.map Prod.snd = some .success) :
    ∃ s, Run (startPuller zero blank 2 ⟨receiver, .setup⟩) (run crc).1 s .success := by
  obtain ⟨⟨s, stat⟩, hs, rfl⟩ := Option.map_eq_some_iff.1 h
  exact ⟨s, run_play env hs⟩

end MismatchRun

open MismatchRun Sample in
theorem startPuller_success_sound_iff_zero : ∃ tr s, Run (startPuller zero blank 2 ⟨receiver, .setup⟩) tr s .success ∧
    ((Status.success = .success → VerifiedFile zero tr s) ↔ MismatchStopped zero tr) := by
  obtain ⟨s, hs⟩ := run_success 0 (by decide +kernel)
  exact ⟨(run 0).1, s, hs, startPuller_success_sound_iff zero blank 2 receiver _ s .success hs⟩

open MismatchRun Sample in
/-- Nothing fails, the checksum in the verification's SEND header is not that of the file, and `start_puller` returns `SUCCESS`. -/
theorem startPuller_success_on_mismatch :
    ∃ tr s, Run (startPuller zero blank 2 ⟨receiver, .setup⟩) tr s .success ∧ ¬VerifiedFile zero tr s := by
  obtain ⟨s, hs⟩ := run_success 1 (by decide +kernel)
  refine ⟨(run 1).1, s, hs, ?_⟩
  intro h
  obtain ⟨send, recv, hsend, hcrc, _⟩ := h
  have hone : ((run 1).1.filterMap verificationPacket).getLast?.map SendPacket.crc = some 1 := by decide +kernel
  rw [hsend, Option.map_some, hcrc] at hone
  exact absurd (Option.some.inj hone) (show (0 : UInt16) ≠ 1 by decide)

end RufShare
