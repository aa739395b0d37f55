import RufShare.Resumption.Retry
import RufShare.Theorems.Loops

/-!
# The tries of a transfer

Both transfer loops try again what is not accepted, and one counter is used for every FLOW header and every chunk. What a run of one
of them has tried, and what it was answered, is read off its calls; in a run that nothing disturbs each header and each chunk has
`tf_trycount` tries of its own.
-/

namespace RufShare

open Resumption Retry

/-! ## What a run has tried -/

/-- What is tried until it is accepted: the FLOW header of a chunk, or its data. -/
inductive Item where
  | header (seq : Nat)
  | chunk (seq : Nat)
  deriving DecidableEq, Repr

/-- A try begins where a FLOW header is sent, or where the buffer for the segments of a chunk is allocated. -/
def attempt : Event → Option Item
  | ⟨_, .send .stream _ buf, _⟩ =>
    if byteAt buf 0 = PacketType.code .flow then some (.header (convertFlowPacket (.ofBytes buf)).sequence.toNat) else none
  | ⟨s, .calloc _ _, _⟩ => some (.chunk s.conf.seq.toNat)
  | _ => none

/-- What a run has tried, in order. -/
def attempts (tr : List Event) : List Item := tr.filterMap attempt

/-- The answer the sender gets to what it has tried: whether `ack = 1`. -/
def reply : Event → Option (Item × Bool)
  | ⟨s, .recv .stream _ _ false, some b⟩ =>
    some (if s.phase = .flow then .header s.conf.seq.toNat else .chunk s.conf.seq.toNat, (RecvPacket.ofBytes b.1).ack = 1)
  | _ => none

/-- The answers a run of the sender gets, in order. -/
def replies (tr : List Event) : List (Item × Bool) := tr.filterMap reply

/-- The FLOW header that was received last. -/
def lastFlow (flow : FlowPacket) : Event → FlowPacket
  | ⟨_, .recv .stream _ _ false, some b⟩ => convertFlowPacket (.ofBytes b.1)
  | _ => flow

/-- Where the receiver answers for a chunk, whether the crcChecksum of the chunk in the file is the one in the header. -/
def crcCheck (Γ : Libcrc) (flow : FlowPacket) : Event → Option (Item × Bool)
  | ⟨s, .send .stream _ _, _⟩ =>
    if s.phase = .data then some (.chunk s.conf.seq.toNat, flow.crc = calcChunkCrc32 Γ s.conf.filec (chunkContext s.conf)) else none
  | _ => none

/-- The checks of a run of the receiver, in order; `flow` is the header it has received before. -/
def crcChecks (Γ : Libcrc) : FlowPacket → List Event → List (Item × Bool)
  | _, [] => []
  | flow, e :: tr => (crcCheck Γ flow e).toList ++ crcChecks Γ (lastFlow flow e) tr

/-- A header that is looked at is of a type. -/
def expected (type : PacketType) : Event → Bool
  | ⟨_, .recv .stream _ _ true, some b⟩ => byteAt b.1 0 = type.code
  | _ => true

/-- A call succeeds, and a header that is waited for is of the type that is expected. -/
def Undisturbed (type : PacketType) (e : Event) : Prop := Succeeded e ∧ expected type e = true

instance (type : PacketType) : DecidablePred (Undisturbed type) := fun e =>
  inferInstanceAs (Decidable (Succeeded e ∧ expected type e = true))

/-- The cursor of the file can be set to every chunk. -/
def Seekable (c : InitConfig) : Prop := ∀ seq, 1 ≤ seq → seq ≤ c.chcount →
  (mfseek c.filec.mfile (chunkContext { c with seq := seq }).startPos).1 = (chunkContext { c with seq := seq }).startPos

/-- The headers and chunks `m + 1` to `n`, as the sender tries them. -/
def pushItems (m n : Nat) : List Item := (List.range' (m + 1) (n - m)).flatMap (fun seq => [.header seq, .chunk seq])

/-- The chunks `m + 1` to `n`, as the receiver tries them. -/
def pullItems (m n : Nat) : List Item := (List.range' (m + 1) (n - m)).map .chunk

/-- What a run of `push_transfer` comes to that nothing disturbs, with `n` chunks and `t` tries. -/
structure PushBudget (t n : Nat) (tr : List Event) (stat : Status) : Prop where
  answered : attempts tr = (replies tr).map Prod.fst
  tries : ∃ given, Tries t (pushItems 0 n) (replies tr) given
  bounded : ∀ i, (attempts tr).count i ≤ t
  exptry0 : stat = .exptry0 ↔ ∃ seq, List.replicate t false <:+: answers (replies tr) (.header seq)
  exptry1 : stat = .exptry1 ↔ ∃ seq, List.replicate t false <:+: answers (replies tr) (.chunk seq)
  success : stat = .success ↔ ∀ i ∈ pushItems 0 n, ∃ k < t, answers (replies tr) i = List.replicate k false ++ [true]
  status : stat = .success ∨ stat = .exptry0 ∨ stat = .exptry1

/-- What a run of `pull_transfer` comes to that nothing disturbs. It may also end at a FLOW header that does not match. -/
structure PullBudget (Γ : Libcrc) (t n : Nat) (tr : List Event) (stat : Status) : Prop where
  answered : attempts tr = (crcChecks Γ emptyFlow tr).map Prod.fst
  tries : (stat = .badflow ∧ ∃ m < n, Tries t (pullItems 0 m) (crcChecks Γ emptyFlow tr) none) ∨
    (stat ≠ .badflow ∧ ∃ given, Tries t (pullItems 0 n) (crcChecks Γ emptyFlow tr) given)
  bounded : ∀ i, (attempts tr).count i ≤ t
  exptry0 : stat = .exptry0 ↔ ∃ seq, List.replicate t false <:+: answers (crcChecks Γ emptyFlow tr) (.chunk seq)
  success : stat = .success ↔
    ∀ i ∈ pullItems 0 n, ∃ k < t, answers (crcChecks Γ emptyFlow tr) i = List.replicate k false ++ [true]
  status : stat = .success ∨ stat = .exptry0 ∨ stat = .badflow

namespace BudgetAux

/-! ## Calls that try nothing -/

/-- A call that tries nothing and answers for nothing. -/
def Silent : Call → Prop
  | .send .stream _ _ => False
  | .recv .stream _ _ false => False
  | .calloc _ _ => False
  | _ => True

theorem attempt_silent {e : Event} (h : Silent e.call) : attempt e = none := by
  obtain ⟨s, c, r⟩ := e
  cases c with
  | send ty fd buf =>
    cases ty with
    | stream => exact h.elim
    | dgram => rfl
  | calloc n size => exact h.elim
  | _ => rfl

theorem reply_silent {e : Event} (h : Silent e.call) : reply e = none := by
  obtain ⟨s, c, r⟩ := e
  cases c with
  | recv ty fd size peek =>
    cases ty with
    | stream =>
      cases peek with
      | false => exact h.elim
      | true => rfl
    | dgram => rfl
  | _ => rfl

theorem lastFlow_silent {flow : FlowPacket} {e : Event} (h : Silent e.call) : lastFlow flow e = flow := by
  obtain ⟨s, c, r⟩ := e
  cases c with
  | recv ty fd size peek =>
    cases ty with
    | stream =>
      cases peek with
      | false => exact h.elim
      | true => rfl
    | dgram => rfl
  | _ => rfl

theorem crcCheck_silent {Γ : Libcrc} {flow : FlowPacket} {e : Event} (h : Silent e.call) : crcCheck Γ flow e = none := by
  obtain ⟨s, c, r⟩ := e
  cases c with
  | send ty fd buf =>
    cases ty with
    | stream => exact h.elim
    | dgram => rfl
  | _ => rfl

theorem attempts_append (tr tr' : List Event) : attempts (tr ++ tr') = attempts tr ++ attempts tr' := List.filterMap_append

theorem replies_append (tr tr' : List Event) : replies (tr ++ tr') = replies tr ++ replies tr' := List.filterMap_append

theorem crcChecks_append (Γ : Libcrc) (flow : FlowPacket) (tr tr' : List Event) :
    crcChecks Γ flow (tr ++ tr') = crcChecks Γ flow tr ++ crcChecks Γ (tr.foldl lastFlow flow) tr' := by
  induction tr generalizing flow with
  | nil => rfl
  | cons e tr ih => rw [List.cons_append, crcChecks, crcChecks, ih, List.foldl_cons, List.append_assoc]

section Silent

variable {tr : List Event} (h : ∀ e ∈ tr, Silent e.call)
include h

theorem attempts_of_silent : attempts tr = [] := List.filterMap_eq_nil_iff.2 fun e he => attempt_silent (h e he)

theorem replies_of_silent : replies tr = [] := List.filterMap_eq_nil_iff.2 fun e he => reply_silent (h e he)

theorem foldl_of_silent (flow : FlowPacket) : tr.foldl lastFlow flow = flow := by
  induction tr with
  | nil => rfl
  | cons e tr ih =>
    rw [List.forall_mem_cons] at h
    rw [List.foldl_cons, lastFlow_silent h.1, ih h.2]

theorem crcChecks_of_silent (Γ : Libcrc) (flow : FlowPacket) : crcChecks Γ flow tr = [] := by
  induction tr with
  | nil => rfl
  | cons e tr ih =>
    rw [List.forall_mem_cons] at h
    rw [crcChecks, crcCheck_silent h.1, lastFlow_silent h.1, ih h.2]
    rfl

end Silent

/-! ## Calls that succeed -/

theorem under_pushHeader {type : PacketType} (sock : Sockfd) (buf : Bytes) (timeout : Int) (s : Proc) :
    (pushHeader sock buf timeout s).Under (Undisturbed type) (fun tr s' stat => stat = .success ∧ s' = s ∧
      ∃ n, tr = [⟨s, .malloc buf.length, true⟩, ⟨s, .poll .stream sock .pollout timeout, .ready true⟩,
        ⟨s, .send .stream sock buf, some n⟩]) := by
  refine Tree.under_iff.2 ((after_pushHeader sock buf timeout s).mono ?_)
  rintro tr s' stat ⟨hs, -, hok, htr⟩ hall
  have hstat := hok.2 fun e he => (hall e he).1
  exact ⟨hstat, hs, htr hstat⟩

theorem under_pullTcpData {type : PacketType} (sock : Sockfd) (size : Nat) (peek : Bool) (s : Proc) :
    (pullTcpData sock size peek s).Under (Undisturbed type) (fun tr s' got => got.1 = .success ∧ s' = s ∧
      ∃ b : { b : Bytes // b.length ≤ size }, tr = [⟨s, .recv .stream sock size peek, some b⟩] ∧ got.2 = b.1 ∧
        (peek = true → byteAt b.1 0 = type.code)) := by
  unfold pullTcpData
  refine under_syscall fun received hr => ?_
  cases received with
  | none => exact hr.1.elim
  | some b =>
    refine under_ite (fun hlt => absurd hlt (Nat.not_lt.2 hr.1)) fun _ => ⟨rfl, rfl, b, rfl, rfl, ?_⟩
    rintro rfl
    exact of_decide_eq_true hr.2

/-- A packet is received after a look at its type. -/
theorem under_pullPacket (sock : Sockfd) (type : PacketType) (timeout : Int) (s : Proc) :
    (pullPacket sock type timeout s).Under (Undisturbed type) (fun tr s' got => got.1 = .success ∧ s' = s ∧
      ∃ looks, (∀ e ∈ looks, Silent e.call) ∧ ∃ b : { b : Bytes // b.length ≤ type.size },
        tr = looks ++ [⟨s, .recv .stream sock type.size false, some b⟩] ∧ got.2 = b.1) := by
  unfold pullPacket pullType
  refine under_bind (R := fun tr s' stat => stat = .success ∧ s' = s ∧ ∀ e ∈ tr, Silent e.call) ?_ ?_
  · refine under_syscall fun polled hpolled => ?_
    obtain rfl : polled = .ready true := hpolled.1
    refine under_ite nofun fun _ => under_bind (under_pullTcpData sock 1 true s) ?_
    rintro _ _ ⟨_, _⟩ ⟨rfl, rfl, b, rfl, rfl, htype⟩
    refine under_ok rfl (under_ite (fun hne => absurd (htype rfl).symm hne) fun _ => ⟨rfl, rfl, ?_⟩)
    simp [Silent]
  · rintro looks _ _ ⟨rfl, rfl, hlooks⟩
    refine under_ok rfl ((under_pullTcpData sock type.size false _).mono ?_)
    rintro _ _ ⟨_, _⟩ ⟨rfl, rfl, b, rfl, rfl, -⟩
    exact ⟨rfl, rfl, looks, hlooks, b, rfl, rfl⟩

theorem under_pushSegments (type : PacketType) (sock : Sockfd) (timeout : Int) (rounds : Nat) : ∀ rsize s,
    (pushSegments sock timeout rounds rsize s).Under (Undisturbed type) (fun tr _ stat =>
      stat = .success ∧ ∀ e ∈ tr, Silent e.call) := by
  induction rounds with
  | zero =>
    intro rsize s
    cases rsize with
    | zero => exact ⟨rfl, List.forall_mem_nil _⟩
    | succ rsize => trivial
  | succ rounds ih =>
    intro rsize s
    cases rsize with
    | zero => exact ⟨rfl, List.forall_mem_nil _⟩
    | succ rsize =>
      unfold pushSegments pushUdpData
      refine under_conf (under_setConf (under_syscall fun polled hpolled => ?_))
      obtain rfl : polled = .ready true := hpolled.1
      refine under_ite (by simp) fun _ => under_bind (R := fun tr _ stat => stat = .success ∧ ∀ e ∈ tr, Silent e.call) ?_ ?_
      · refine under_syscall fun sent hsent => ?_
        cases sent with
        | none => exact hsent.1.elim
        | some n => exact under_ite (fun hlt => absurd hlt (Nat.not_lt.2 hsent.1)) fun _ => ⟨rfl, by simp [Silent]⟩
      · rintro tr s' _ ⟨rfl, htr⟩
        refine under_ok rfl ((ih _ _).mono ?_)
        rintro tr' _ stat ⟨hstat, htr'⟩
        exact ⟨hstat, List.forall_mem_cons.2 ⟨trivial, List.forall_mem_append.2 ⟨htr, htr'⟩⟩⟩

theorem under_pullSegments (type : PacketType) (sock : Sockfd) (timeout : Int) (rounds : Nat) : ∀ rsize s,
    (pullSegments sock timeout rounds rsize s).Under (Undisturbed type) (fun tr _ stat =>
      stat = .success ∧ ∀ e ∈ tr, Silent e.call) := by
  induction rounds with
  | zero =>
    intro rsize s
    cases rsize with
    | zero => exact ⟨rfl, List.forall_mem_nil _⟩
    | succ rsize => trivial
  | succ rounds ih =>
    intro rsize s
    cases rsize with
    | zero => exact ⟨rfl, List.forall_mem_nil _⟩
    | succ rsize =>
      unfold pullSegments pullUdpData
      refine under_conf (under_syscall fun polled hpolled => ?_)
      obtain rfl : polled = .ready true := hpolled.1
      refine under_ite (by simp) fun _ => under_bind (R := fun tr _ got => got.1 = .success ∧ ∀ e ∈ tr, Silent e.call) ?_ ?_
      · refine under_syscall fun received hr => ?_
        cases received with
        | none => exact hr.1.elim
        | some b => exact under_ite (fun hlt => absurd hlt (Nat.not_lt.2 hr.1)) fun _ => ⟨rfl, by simp [Silent]⟩
      · rintro tr s' ⟨_, segbuf⟩ ⟨rfl, htr⟩
        refine under_ok rfl (under_setConf ((ih _ _).mono ?_))
        rintro tr' _ stat ⟨hstat, htr'⟩
        exact ⟨hstat, List.forall_mem_cons.2 ⟨trivial, List.forall_mem_append.2 ⟨htr, htr'⟩⟩⟩

/-- Sending a chunk allocates a buffer, and tries and answers for nothing after that. -/
theorem under_pushChunkData (type : PacketType) (sock : Sockfd) {chunk : ChunkContext} (timeout : Int) {s : Proc}
    (hseek : (mfseek s.conf.filec.mfile chunk.startPos).1 = chunk.startPos) :
    (pushChunkData sock chunk timeout s).Under (Undisturbed type) (fun tr _ stat =>
      stat = .success ∧ ∃ rest, (∀ e ∈ rest, Silent e.call) ∧ tr = ⟨s, .calloc s.conf.segsize 1, true⟩ :: rest) := by
  unfold pushChunkData
  refine under_conf (under_syscall fun allocated ha => ?_)
  obtain rfl : allocated = true := ha.1
  refine under_ite nofun fun _ => under_setConf (under_ite (fun hne => absurd hseek.symm hne) fun _ => ?_)
  refine (under_pushSegments type sock timeout _ _ _).mono ?_
  rintro tr _ stat ⟨hstat, htr⟩
  exact ⟨hstat, tr, htr, rfl⟩

/-- So does receiving one. -/
theorem under_pullChunkData (type : PacketType) (sock : Sockfd) {chunk : ChunkContext} (timeout : Int) {s : Proc}
    (hseek : (mfseek s.conf.filec.mfile chunk.startPos).1 = chunk.startPos) :
    (pullChunkData sock chunk timeout s).Under (Undisturbed type) (fun tr _ stat =>
      stat = .success ∧ ∃ rest, (∀ e ∈ rest, Silent e.call) ∧ tr = ⟨s, .calloc s.conf.segsize 1, true⟩ :: rest) := by
  unfold pullChunkData setSocketRcvlowsize
  refine under_conf (under_syscall fun allocated ha => ?_)
  obtain rfl : allocated = true := ha.1
  refine under_ite nofun fun _ => under_setConf (under_ite (fun hne => absurd hseek.symm hne) fun _ => ?_)
  refine under_bind (R := fun tr _ stat => stat = .success ∧ ∀ e ∈ tr, Silent e.call) ?_ ?_
  · refine under_ite (fun _ => under_syscall fun ok hok => ?_) fun _ => ⟨rfl, List.forall_mem_nil _⟩
    obtain rfl : ok = true := hok.1
    exact under_ite nofun fun _ => ⟨rfl, by simp [Silent]⟩
  rintro tr₁ s₁ _ ⟨rfl, htr₁⟩
  refine under_ok rfl (under_bind (under_pullSegments type sock timeout _ _ _) ?_)
  rintro tr₂ s₂ _ ⟨rfl, htr₂⟩
  unfold mfsync
  refine under_ok rfl (under_conf (under_bind (R := fun tr _ synced => synced = true ∧ ∀ e ∈ tr, Silent e.call) ?_ ?_))
  · refine under_syscall fun pagesize hpage => ?_
    cases pagesize with
    | none => exact absurd hpage.1 nofun
    | some pagesize => exact fun synced hsynced => ⟨hsynced.1, by simp [Silent]⟩
  · rintro tr₃ s₃ _ ⟨rfl, htr₃⟩
    refine under_ite nofun fun _ => ⟨rfl, _, ?_, rfl⟩
    exact List.forall_mem_append.2 ⟨htr₁, List.forall_mem_append.2 ⟨htr₂, List.forall_mem_append.2 ⟨htr₃, List.forall_mem_nil _⟩⟩⟩

/-! ## The tries of one item -/

/-- A process whose configuration is `κ` except for what the file contains and where its cursor is. -/
def Held (κ : InitConfig) (s : Proc) : Prop := LoopsAux.Kept κ s ∧ s.conf.filec.mfile.handle = κ.filec.mfile.handle

theorem held_pushChunkData (κ : InitConfig) (p : Phase) (sock : Sockfd) (chunk : ChunkContext) (timeout : Int) :
    Within (fun s => Held κ s ∧ s.phase = p) (fun _ _ => True) (pushChunkData sock chunk timeout) :=
  within_pushChunkData (fun _ _ _ _ => trivial) (fun _ _ hs h => ⟨⟨h.1.1, hs.trans h.1.2⟩, h.2⟩) sock chunk timeout

theorem held_pullChunkData (κ : InitConfig) (p : Phase) (sock : Sockfd) (chunk : ChunkContext) (timeout : Int) :
    Within (fun s => Held κ s ∧ s.phase = p) (fun _ _ => True) (pullChunkData sock chunk timeout) :=
  within_pullChunkData (fun _ _ _ _ => trivial) (fun _ _ hs h => ⟨⟨h.1.1, hs.trans h.1.2⟩, h.2⟩) sock chunk timeout

/-- The cursor of the file of `κ` can be set to its chunk. -/
def SeekableTo (κ : InitConfig) : Prop := (mfseek κ.filec.mfile (chunkContext κ).startPos).1 = (chunkContext κ).startPos

theorem mfseek_of_handle {stream stream' : MFile} (h : stream'.handle = stream.handle) (pos : Nat) :
    (mfseek stream' pos).1 = (mfseek stream pos).1 := by
  obtain ⟨-, hopen, hsize⟩ : _ ∧ stream'.isOpen = stream.isOpen ∧ stream'.size = stream.size := by simpa [MFile.handle] using h
  exact LoopsAux.mfseek_congr ⟨hopen, hsize⟩ pos

/-- What a loop over the tries of an item comes to: it has been tried as often as it was answered, and no tries are left exactly when
it was not accepted. -/
def TriesOf (κ : InitConfig) (i : Item) (tries : Nat) (record : List Event → List (Item × Bool)) (tr : List Event) (s : Proc)
    (got : Status × Nat) : Prop :=
  got.1 = .success ∧ Held κ s ∧ attempts tr = (record tr).map Prod.fst ∧
    ∃ b, Tried i tries (record tr) b ∧ (got.2 = 0 ↔ b = false)

/-- The item an answer is for. -/
def itemOf (s : Proc) : Item := if s.phase = .flow then .header s.conf.seq.toNat else .chunk s.conf.seq.toNat

theorem under_pullRecvHeader (sock : Sockfd) (args : RecvPacket) (timeout : Int) (s : Proc) :
    (pullRecvHeader sock args timeout s).Under (Undisturbed .recv) (fun tr s' got => got.1 = .success ∧ s' = s ∧
      attempts tr = [] ∧ replies tr = [(itemOf s, decide (got.2.ack = 1))]) := by
  unfold pullRecvHeader
  refine under_bind (under_pullPacket sock .recv timeout s) ?_
  rintro _ _ ⟨_, _⟩ ⟨rfl, rfl, looks, hlooks, b, rfl, rfl⟩
  refine under_ok rfl ⟨rfl, rfl, ?_, ?_⟩
  · rw [List.append_nil, attempts_append, attempts_of_silent hlooks]
    rfl
  · rw [List.append_nil, replies_append, replies_of_silent hlooks]
    rfl

/-- One round of a loop of the sender: the item is sent, and the loop goes on when it is not accepted. -/
theorem under_round {κ : InitConfig} {p : Phase} {i : Item} {send : Prog Status} {loop : Prog (Status × Nat)} {tries : Nat}
    {sock : Sockfd} {timeout : Int} {s : Proc} (hitem : ∀ s, Held κ s ∧ s.phase = p → itemOf s = i)
    (hsend : (send s).Under (Undisturbed .recv) (fun tr s' stat => stat = .success ∧ (Held κ s' ∧ s'.phase = p) ∧
      attempts tr = [i] ∧ replies tr = []))
    (hloop : ∀ s', Held κ s' → (loop s').Under (Undisturbed .recv) (TriesOf κ i tries replies)) :
    ((send >>= fun stat => if stat ≠ .success then pure (stat, tries + 1) else
      pullRecvHeader sock emptyRecv timeout >>= fun got => if got.1 ≠ .success then pure (got.1, tries + 1) else
        if got.2.ack = 1 then pure (.success, tries + 1) else loop) s).Under (Undisturbed .recv)
      (TriesOf κ i (tries + 1) replies) := by
  refine under_bind hsend ?_
  rintro tr₁ s₁ _ ⟨rfl, hheld, hattempts₁, hreplies₁⟩
  refine under_ok rfl (under_bind (under_pullRecvHeader _ _ _ s₁) ?_)
  rintro tr₂ _ ⟨_, recv⟩ ⟨rfl, rfl, hattempts₂, hreplies₂⟩
  rw [hitem _ hheld] at hreplies₂
  refine under_ok rfl (under_ite (fun hack => ?_) fun hack => (hloop _ hheld.1).mono ?_)
  · refine ⟨rfl, hheld.1, ?_, true, ?_, iff_of_false (Nat.succ_ne_zero _) nofun⟩
    all_goals rw [List.append_nil]
    · simp [attempts_append, replies_append, hattempts₁, hattempts₂, hreplies₁, hreplies₂]
    · rw [replies_append, hreplies₁, hreplies₂, List.nil_append, decide_eq_true hack]
      exact .accepted tries
  · rintro tr₃ s₃ got ⟨hstat, hheld₃, hattempts₃, b, htried, hleft⟩
    have hreplies : replies (tr₁ ++ (tr₂ ++ tr₃)) = (i, false) :: replies tr₃ := by
      rw [replies_append, replies_append, hreplies₁, hreplies₂, decide_eq_false hack]
      rfl
    refine ⟨hstat, hheld₃, ?_, b, ?_, hleft⟩
    · rw [attempts_append, attempts_append, hattempts₁, hattempts₂, hattempts₃, hreplies]
      rfl
    · rw [hreplies]
      exact .refused htried

/-- The tries of a FLOW header. -/
theorem under_pushFlowLoop (κ : InitConfig) (chunkSize : UInt16) (crc : UInt32) (tries : Nat) : ∀ s, Held κ s →
    (pushFlowLoop (packFlowPacket chunkSize κ.seq crc) tries s).Under (Undisturbed .recv)
      (TriesOf κ (.header κ.seq.toNat) tries replies) := by
  induction tries with
  | zero => exact fun s hs => ⟨rfl, hs, rfl, false, .out, iff_of_true rfl rfl⟩
  | succ tries ih =>
    intro s hs
    unfold pushFlowLoop
    refine under_enter (under_conf (under_round (p := .flow) ?_ ?_ ih))
    · rintro s' ⟨hs', hp⟩
      rw [itemOf, if_pos hp, hs'.1.seq]
    · refine (under_pushHeader _ _ _ _).mono ?_
      rintro _ _ _ ⟨rfl, rfl, n, rfl⟩
      refine ⟨rfl, ⟨hs, rfl⟩, ?_, rfl⟩
      have hbuf : attempt ⟨{ s with phase := .flow }, .send .stream s.conf.cntlSock (packFlowPacket chunkSize κ.seq crc).bytes,
          some n⟩ = some (.header κ.seq.toNat) := by
        rw [attempt, FlowPacket.ofBytes_bytes]
        simp [FlowPacket.bytes, byteAt, packFlowPacket, convertFlowPacket]
      exact (List.filterMap_cons_none rfl).trans ((List.filterMap_cons_none rfl).trans (List.filterMap_cons_some hbuf))

theorem Held.seekable {κ : InitConfig} {s : Proc} (h : Held κ s) (hseek : SeekableTo κ) :
    (mfseek s.conf.filec.mfile (chunkContext κ).startPos).1 = (chunkContext κ).startPos :=
  (mfseek_of_handle h.2 _).trans hseek

theorem attempts_chunk {κ : InitConfig} {s : Proc} (h : Held κ s) {rest : List Event} (hrest : ∀ e ∈ rest, Silent e.call) :
    attempts (⟨s, .calloc s.conf.segsize 1, true⟩ :: rest) = [.chunk κ.seq.toNat] := by
  have hcall : attempt ⟨s, .calloc s.conf.segsize 1, true⟩ = some (.chunk κ.seq.toNat) := by
    rw [attempt, h.1.seq]
  exact (List.filterMap_cons_some hcall).trans (congrArg (List.cons _) (attempts_of_silent hrest))

/-- The tries of a chunk. -/
theorem under_pushDataLoop (κ : InitConfig) (hseek : SeekableTo κ) (tries : Nat) : ∀ s, Held κ s →
    (pushDataLoop (chunkContext κ) tries s).Under (Undisturbed .recv) (TriesOf κ (.chunk κ.seq.toNat) tries replies) := by
  induction tries with
  | zero => exact fun s hs => ⟨rfl, hs, rfl, false, .out, iff_of_true rfl rfl⟩
  | succ tries ih =>
    intro s hs
    unfold pushDataLoop
    refine under_enter (under_conf (under_round (p := .data) ?_ ?_ ih))
    · rintro s' ⟨hs', hp⟩
      rw [itemOf, if_neg (hp ▸ (by simp)), hs'.1.seq]
    · have hdata : Held κ { s with phase := .data } := hs
      refine ((under_pushChunkData _ _ _ (hdata.seekable hseek)).and_after
        ((held_pushChunkData κ .data _ _ _).after ⟨hdata, rfl⟩)).mono ?_
      rintro _ s' stat ⟨⟨hstat, rest, hrest, rfl⟩, hs', -⟩
      refine ⟨hstat, hs', attempts_chunk hdata hrest, ?_⟩
      exact (List.filterMap_cons_none rfl).trans (replies_of_silent hrest)

/-- A chunk that is received and answered for: one try and one check. -/
theorem round_of_check {Γ : Libcrc} {flow : FlowPacket} {κ : InitConfig} {s s₁ : Proc} (hs : Held κ s) {rest : List Event}
    (hrest : ∀ e ∈ rest, Silent e.call) {fd : Sockfd} {timeout : Int} {ack : UInt8} {seq : UInt32} {n : Nat} {ok : Bool}
    (hcheck : crcCheck Γ flow ⟨s₁, .send .stream fd (packRecvPacket ack 0 seq).bytes, some n⟩ = some (.chunk κ.seq.toNat, ok))
    {tr : List Event} (tr' : List Event) (htr : tr = ⟨s, .calloc s.conf.segsize 1, true⟩ :: rest ++ ([⟨s₁, .malloc (packRecvPacket ack 0 seq).bytes.length, true⟩,
      ⟨s₁, .poll .stream fd .pollout timeout, .ready true⟩, ⟨s₁, .send .stream fd (packRecvPacket ack 0 seq).bytes, some n⟩] ++ tr')) :
    attempts tr = .chunk κ.seq.toNat :: attempts tr' ∧ crcChecks Γ flow tr = (.chunk κ.seq.toNat, ok) :: crcChecks Γ flow tr' ∧
      tr.foldl lastFlow flow = tr'.foldl lastFlow flow := by
  subst htr
  refine ⟨?_, ?_, ?_⟩
  · rw [attempts_append, attempts_append, attempts_chunk hs hrest]
    rfl
  · rw [List.cons_append, crcChecks, crcChecks_append, crcChecks_of_silent hrest, foldl_of_silent hrest, List.nil_append]
    change (crcCheck Γ flow ⟨s₁, .send .stream fd (packRecvPacket ack 0 seq).bytes, some n⟩).toList ++ crcChecks Γ flow tr' = _
    rw [hcheck]
    rfl
  · rw [List.cons_append, List.foldl_cons, List.foldl_append, List.foldl_append]
    exact congrArg (tr'.foldl lastFlow) (foldl_of_silent hrest flow)

/-- The tries of a chunk that is received. -/
theorem under_pullDataLoop (Γ : Libcrc) (flow : FlowPacket) (κ : InitConfig) (hseek : SeekableTo κ) (tries : Nat) : ∀ s, Held κ s →
    (pullDataLoop Γ flow (chunkContext κ) tries s).Under (Undisturbed .flow) (fun tr s' got =>
      TriesOf κ (.chunk κ.seq.toNat) tries (crcChecks Γ flow) tr s' got ∧ tr.foldl lastFlow flow = flow) := by
  induction tries with
  | zero => exact fun s hs => ⟨⟨rfl, hs, rfl, false, .out, iff_of_true rfl rfl⟩, rfl⟩
  | succ tries ih =>
    intro s hs
    unfold pullDataLoop
    have hdata : Held κ { s with phase := .data } := hs
    refine under_enter (under_conf (under_bind ((under_pullChunkData _ _ _ (hdata.seekable hseek)).and_after
      ((held_pullChunkData κ .data _ _ _).after ⟨hdata, rfl⟩)) ?_))
    rintro _ s₁ _ ⟨⟨rfl, rest, hrest, rfl⟩, ⟨hs₁, hphase⟩, -⟩
    -- what is checked is the chunk in the file as it was received
    have hchunk : chunkContext s₁.conf = chunkContext κ := by
      have hkept := hs₁.1
      unfold LoopsAux.Kept at hkept
      rw [← hkept]
      rfl
    have hcheck (buf : Bytes) (n : Nat) (ok : Bool) (hok : decide (flow.crc = calcChunkCrc32 Γ s₁.conf.filec (chunkContext κ)) = ok) :
        crcCheck Γ flow ⟨s₁, .send .stream s₁.conf.connSock buf, some n⟩ = some (.chunk κ.seq.toNat, ok) := by
      rw [crcCheck, if_pos hphase, hchunk, hok, hs₁.1.seq]
    refine under_ok rfl (under_conf (under_ite (fun hcrc => ?_) fun hcrc => ?_))
    · refine under_bind (under_pushHeader _ _ _ s₁) ?_
      rintro _ _ _ ⟨rfl, rfl, n, rfl⟩
      obtain ⟨hattempts, hchecks, hlast⟩ := round_of_check hdata hrest (hcheck _ n true (decide_eq_true hcrc)) [] rfl
      refine under_ok rfl ⟨⟨rfl, hs₁, ?_, true, ?_, iff_of_false (Nat.succ_ne_zero _) (by simp)⟩, hlast⟩
      · rw [hattempts, hchecks]
        rfl
      · rw [hchecks]
        exact .accepted tries
    · refine under_bind (under_pushHeader _ _ _ s₁) ?_
      rintro _ _ _ ⟨rfl, rfl, n, rfl⟩
      refine under_ok rfl ((ih _ hs₁).mono ?_)
      rintro tr' s' got ⟨⟨hstat, hs', hattempts', b, htried, hleft⟩, hlast'⟩
      obtain ⟨hattempts, hchecks, hlast⟩ := round_of_check hdata hrest (hcheck _ n false (decide_eq_false hcrc)) tr' rfl
      refine ⟨⟨hstat, hs', ?_, b, ?_, hleft⟩, hlast.trans hlast'⟩
      · rw [hattempts, hattempts', hchecks]
        rfl
      · rw [hchecks]
        exact .refused htried

/-! ## One exchange -/

/-- The status of the sender when it has given up on an item, or on none. -/
def pushStatus : Option Item → Status
  | none => .success
  | some (.header _) => .exptry0
  | some (.chunk _) => .exptry1

/-- The status of the receiver. -/
def pullStatus : Option Item → Status
  | none => .success
  | some _ => .exptry0

/-- An exchange of the sender: a FLOW header and then its chunk. -/
def PushSpec (t seq : Nat) (tr : List Event) (stat : Status) : Prop :=
  attempts tr = (replies tr).map Prod.fst ∧
    ∃ given, Tries t [.header seq, .chunk seq] (replies tr) given ∧ stat = pushStatus given

/-- An exchange of the receiver: a chunk, unless the FLOW header before it does not match. -/
def PullSpec (Γ : Libcrc) (t seq : Nat) (tr : List Event) (stat : Status) : Prop := ∀ flow,
  attempts tr = (crcChecks Γ flow tr).map Prod.fst ∧ ((stat = .badflow ∧ crcChecks Γ flow tr = []) ∨
    ∃ given, Tries t [.chunk seq] (crcChecks Γ flow tr) given ∧ stat = pullStatus given)

theorem under_pushExchange (Γ : Libcrc) (s : Proc) (hseek : SeekableTo s.conf) :
    (LoopsAux.pushExchange Γ s.conf s.conf.tfTrycount s).Under (Undisturbed .recv) (fun tr s' stat =>
      Held s.conf s' ∧ PushSpec s.conf.tfTrycount s.conf.seq.toNat tr stat) := by
  unfold LoopsAux.pushExchange
  refine under_bind (under_pushFlowLoop s.conf _ _ _ s ⟨LoopsAux.kept_self s, rfl⟩) ?_
  rintro tr₁ s₁ ⟨_, left⟩ ⟨rfl, hs₁, hattempts₁, b, htried, hleft⟩
  refine under_ok rfl (under_ite (fun hzero => ?_) fun hne => ?_)
  · obtain rfl := hleft.1 hzero
    refine ⟨hs₁, ?_, some (.header s.conf.seq.toNat), ?_, rfl⟩
    · rw [List.append_nil]
      exact hattempts₁
    · rw [List.append_nil]
      exact .out _ htried
  · obtain rfl := eq_true_of_ne_false fun hb => hne (hleft.2 hb)
    refine under_bind (under_pushDataLoop s.conf hseek _ s₁ hs₁) ?_
    rintro tr₂ s₂ ⟨_, left⟩ ⟨rfl, hs₂, hattempts₂, b, htried₂, hleft⟩
    have hattempts : attempts (tr₁ ++ (tr₂ ++ [])) = (replies (tr₁ ++ (tr₂ ++ []))).map Prod.fst := by
      rw [List.append_nil, attempts_append, replies_append, List.map_append, hattempts₁, hattempts₂]
    refine under_ok rfl (under_ite (fun hzero => ?_) fun hne => ?_)
    · obtain rfl := hleft.1 hzero
      refine ⟨hs₂, hattempts, some (.chunk s.conf.seq.toNat), ?_, rfl⟩
      rw [List.append_nil, replies_append]
      exact .next htried (.out _ htried₂)
    · obtain rfl := eq_true_of_ne_false fun hb => hne (hleft.2 hb)
      refine ⟨hs₂, hattempts, none, ?_, rfl⟩
      rw [List.append_nil, replies_append]
      have hdone := Tries.next htried (Tries.next htried₂ .done)
      rwa [List.append_nil] at hdone

/-- The header that is received is the last one from there on. -/
theorem under_pullFlowHeader (Γ : Libcrc) (sock : Sockfd) (args : FlowPacket) (timeout : Int) (s : Proc) :
    (pullFlowHeader sock args timeout s).Under (Undisturbed .flow) (fun tr s' got => got.1 = .success ∧ s' = s ∧
      attempts tr = [] ∧ ∀ flow, crcChecks Γ flow tr = [] ∧ tr.foldl lastFlow flow = got.2) := by
  unfold pullFlowHeader
  refine under_bind (under_pullPacket sock .flow timeout s) ?_
  rintro _ _ ⟨_, _⟩ ⟨rfl, rfl, looks, hlooks, b, rfl, rfl⟩
  refine under_ok rfl ⟨rfl, rfl, ?_, fun flow => ⟨?_, ?_⟩⟩
  all_goals rw [List.append_nil]
  · rw [attempts_append, attempts_of_silent hlooks]
    rfl
  · rw [crcChecks_append, crcChecks_of_silent hlooks]
    rfl
  · rw [List.foldl_append]
    rfl

/-- The answer to a FLOW header is no try and no check. -/
theorem under_answerFlow (Γ : Libcrc) (sock : Sockfd) (ack : UInt8) (seq : UInt32) (timeout : Int) (s : Proc) (hphase : s.phase = .flow) :
    (pushRecvHeader sock (packRecvPacket ack 0 seq) timeout s).Under (Undisturbed .flow) (fun tr s' stat => stat = .success ∧ s' = s ∧
      attempts tr = [] ∧ ∀ flow, crcChecks Γ flow tr = [] ∧ tr.foldl lastFlow flow = flow) := by
  refine (under_pushHeader _ _ _ s).mono ?_
  rintro _ s _ ⟨rfl, rfl, n, rfl⟩
  refine ⟨rfl, rfl, rfl, fun flow => ⟨?_, rfl⟩⟩
  have hcheck (buf : Bytes) : crcCheck Γ flow ⟨s, .send .stream sock buf, some n⟩ = none := if_neg (hphase ▸ nofun)
  change (crcCheck Γ flow ⟨s, .send .stream sock _, some n⟩).toList ++ [] = _
  rw [hcheck]
  rfl

theorem under_pullExchange (Γ : Libcrc) (s : Proc) (hphase : s.phase = .flow) (hseek : SeekableTo s.conf) :
    (LoopsAux.pullExchange Γ s.conf s.conf.tfTrycount s).Under (Undisturbed .flow) (fun tr s' stat =>
      Held s.conf s' ∧ PullSpec Γ s.conf.tfTrycount s.conf.seq.toNat tr stat) := by
  have hself : Held s.conf s := ⟨LoopsAux.kept_self s, rfl⟩
  unfold LoopsAux.pullExchange
  refine under_bind (under_pullFlowHeader Γ _ _ _ s) ?_
  rintro tr₁ s ⟨_, flow⟩ ⟨rfl, rfl, hattempts₁, hchecks₁⟩
  refine under_ok rfl (under_ite (fun _ => ?_) fun _ => ?_)
  · refine under_bind (under_answerFlow Γ _ _ _ _ _ hphase) ?_
    rintro tr₂ s _ ⟨rfl, rfl, hattempts₂, hchecks₂⟩
    refine under_ok rfl (under_bind (under_pullDataLoop Γ flow _ hseek _ _ hself) ?_)
    rintro tr₃ s₃ ⟨_, left⟩ ⟨⟨rfl, hs₃, hattempts₃, b, htried, hleft⟩, -⟩
    -- whatever header was received before, the checks are against this one
    have hall (flow₀ : FlowPacket) : crcChecks Γ flow₀ (tr₁ ++ (tr₂ ++ (tr₃ ++ []))) = crcChecks Γ flow tr₃ := by
      rw [List.append_nil, crcChecks_append, crcChecks_append, (hchecks₁ flow₀).1, (hchecks₁ flow₀).2, (hchecks₂ flow).1,
        (hchecks₂ flow).2]
      rfl
    have hattempts : attempts (tr₁ ++ (tr₂ ++ (tr₃ ++ []))) = (crcChecks Γ flow tr₃).map Prod.fst := by
      rw [List.append_nil, attempts_append, attempts_append, hattempts₁, hattempts₂, hattempts₃]
      rfl
    refine under_ok rfl (under_ite (fun hzero => ?_) fun hne => ?_)
    · obtain rfl := hleft.1 hzero
      refine ⟨hs₃, fun flow₀ => ?_⟩
      rw [hall]
      exact ⟨hattempts, .inr ⟨some (.chunk s.conf.seq.toNat), .out _ htried, rfl⟩⟩
    · obtain rfl := eq_true_of_ne_false fun hb => hne (hleft.2 hb)
      refine ⟨hs₃, fun flow₀ => ?_⟩
      rw [hall]
      have hdone := Tries.next htried .done
      rw [List.append_nil] at hdone
      exact ⟨hattempts, .inr ⟨none, hdone, rfl⟩⟩
  · refine under_bind (under_answerFlow Γ _ _ _ _ _ hphase) ?_
    rintro tr₂ s _ ⟨rfl, rfl, hattempts₂, hchecks₂⟩
    refine ⟨hself, fun flow₀ => ?_⟩
    rw [List.append_nil, attempts_append, crcChecks_append, hattempts₁, hattempts₂, (hchecks₁ flow₀).1, (hchecks₂ _).1]
    exact ⟨rfl, .inl ⟨rfl, rfl⟩⟩

/-! ## The loops -/

/-- The calls of a loop over the exchanges `m + 1` to `n` that all meet a specification: the loop ends after the last, or with the
status of the first that fails. -/
inductive Rounds (spec : Nat → List Event → Status → Prop) : Nat → Nat → List Event → Status → Prop where
  | done (n : Nat) : Rounds spec n n [] .success
  | stop {m n : Nat} {tr : List Event} {stat : Status} : m < n → spec (m + 1) tr stat → stat ≠ .success → Rounds spec m n tr stat
  | next {m n : Nat} {tr tr' : List Event} {stat : Status} : m < n → spec (m + 1) tr .success → Rounds spec (m + 1) n tr' stat →
      Rounds spec m n (tr ++ tr') stat

/-- The cursor can still be set to every chunk after an exchange. -/
theorem seekable_next {κ : InitConfig} {s : Proc} (h : Seekable κ) (hheld : Held κ s) (seq : UInt32) :
    Seekable { s.conf with seq := seq } := by
  intro seq' hone hle
  have hstart : (chunkContext { s.conf with seq := seq' }).startPos = (chunkContext { κ with seq := seq' }).startPos := by
    have hkept := hheld.1
    unfold LoopsAux.Kept at hkept
    rw [← hkept]
    rfl
  change (mfseek s.conf.filec.mfile (chunkContext { s.conf with seq := seq' }).startPos).1 =
    (chunkContext { s.conf with seq := seq' }).startPos
  rw [hstart, mfseek_of_handle hheld.2]
  exact h seq' hone (hheld.1.chcount ▸ hle)

theorem under_loop {exchange : InitConfig → Nat → Prog Status} {loop : Nat → Nat → Prog Status} (hloop : LoopsAux.Loop exchange loop)
    {g : Proc → Proc} (hround : ∀ rounds trycount (s : Proc), s.conf.seq ≤ s.conf.chcount →
      loop (rounds + 1) trycount s = (exchange s.conf trycount >>= LoopsAux.afterExchange loop rounds s.conf.tfTrycount) (g s))
    {type : PacketType} {spec : Nat → Nat → List Event → Status → Prop} (hspec : ∀ s : Proc, SeekableTo s.conf →
      (exchange s.conf s.conf.tfTrycount (g s)).Under (Undisturbed type) (fun tr s' stat =>
        Held s.conf s' ∧ spec s.conf.tfTrycount s.conf.seq.toNat tr stat)) {t n : Nat} (hn : n + 1 < 2 ^ 32) (rounds : Nat) :
    ∀ m (s : Proc), s.conf.tfTrycount = t → s.conf.chcount.toNat = n → s.conf.seq.toNat = m + 1 → m ≤ n → Seekable s.conf →
      (loop rounds t s).Under (Undisturbed type) (fun tr _ stat => Rounds (spec t) m n tr stat) := by
  -- induction on the rounds: each is one exchange, with `tf_trycount` tries whatever the one before has used
  induction rounds with
  | zero =>
    intro m s _ _ _ _ _
    rw [hloop.zero]
    trivial
  | succ rounds ih =>
    intro m s ht hcount hseq hm hseek
    by_cases hgo : s.conf.seq ≤ s.conf.chcount
    · have hlt : m < n := by
        rw [← hcount, ← Nat.succ_le_iff, Nat.succ_eq_add_one, ← hseq]
        exact UInt32.le_iff_toNat_le.1 hgo
      have hone : 1 ≤ s.conf.seq := by
        rw [UInt32.le_iff_toNat_le, hseq]
        exact Nat.le_add_left 1 m
      rw [hround rounds t s hgo]
      have hexchange := hspec s (hseek _ hone hgo)
      rw [ht, hseq] at hexchange
      refine under_bind hexchange ?_
      rintro tr s₁ stat ⟨hheld, hspec₁⟩
      refine under_ite (fun hne => ?_) fun hstat => under_setConf ?_
      · refine under_pure ?_
        rw [List.append_nil]
        exact .stop hlt hspec₁ hne
      · obtain rfl := Decidable.not_not.1 hstat
        have hnext := LoopsAux.seq_next hheld.1 hgo (by rw [hcount]; exact hn)
        have ht₁ : s₁.conf.tfTrycount = t := by
          have hkept := hheld.1
          unfold LoopsAux.Kept at hkept
          rw [← ht, ← hkept]
        rw [ht]
        refine (ih (m + 1) { s₁ with conf := { s₁.conf with seq := s₁.conf.seq + 1 } } ht₁ ?_ ?_ hlt (seekable_next hseek hheld _)).mono ?_
        · rw [← hcount]
          exact congrArg UInt32.toNat hheld.1.chcount
        · rw [← hseq]
          exact hnext
        · exact fun tr' _ stat hrest => .next hlt hspec₁ hrest
    · obtain ⟨p, hleave⟩ := hloop.leave rounds t s hgo
      rw [hleave]
      have hlt : n < m + 1 := by
        rw [← hseq, ← hcount]
        exact UInt32.lt_iff_toNat_lt.1 (UInt32.not_le.1 hgo)
      obtain rfl : m = n := Nat.le_antisymm hm (Nat.le_of_lt_succ hlt)
      exact .done m

/-! ## Whole runs -/

theorem range'_next {m n : Nat} (h : m < n) : List.range' (m + 1) (n - m) = (m + 1) :: List.range' (m + 1 + 1) (n - (m + 1)) := by
  obtain ⟨k, rfl⟩ := Nat.exists_eq_add_of_lt h
  rw [Nat.add_assoc, Nat.add_sub_cancel_left, List.range'_succ, ← Nat.add_assoc, Nat.add_right_comm m k 1, Nat.add_sub_cancel_left]

theorem pushItems_next {m n : Nat} (h : m < n) : pushItems m n = [.header (m + 1), .chunk (m + 1)] ++ pushItems (m + 1) n := by
  rw [pushItems, range'_next h, List.flatMap_cons]
  rfl

theorem pullItems_next {m n : Nat} (h : m < n) : pullItems m n = [.chunk (m + 1)] ++ pullItems (m + 1) n := by
  rw [pullItems, range'_next h, List.map_cons]
  rfl

theorem pushItems_self (n : Nat) : pushItems n n = [] := by
  rw [pushItems, Nat.sub_self]
  rfl

theorem pullItems_self (n : Nat) : pullItems n n = [] := by
  rw [pullItems, Nat.sub_self]
  rfl

theorem nodup_pullItems (m n : Nat) : (pullItems m n).Nodup :=
  (List.nodup_range' 1).map fun _ _ h => Item.chunk.inj h

theorem mem_pullItems {m n seq : Nat} : .chunk seq ∈ pullItems m n ↔ m < seq ∧ seq ≤ n := by
  simp only [pullItems, List.mem_map, Item.chunk.injEq, exists_eq_right, List.mem_range'_1]
  omega

theorem nodup_pushItems (m n : Nat) : (pushItems m n).Nodup := by
  refine List.nodup_flatMap.2 ⟨fun seq _ => by simp, (List.nodup_range' 1).imp ?_⟩
  intro a b hne
  simp [Function.onFun, Ne.symm hne]

theorem pushStatus_ne {given : Option Item} (h : pushStatus given ≠ .success) : ∃ i, given = some i := by
  cases given with
  | none => exact absurd rfl h
  | some i => exact ⟨i, rfl⟩

theorem pushStatus_eq {given : Option Item} (h : .success = pushStatus given) : given = none := by
  cases given with
  | none => rfl
  | some i => cases i <;> nomatch h

/-- All exchanges of a run of the sender, one after the other. -/
theorem tries_of_pushRounds {t m n : Nat} {tr : List Event} {stat : Status} (h : Rounds (PushSpec t) m n tr stat) :
    attempts tr = (replies tr).map Prod.fst ∧ ∃ given, Tries t (pushItems m n) (replies tr) given ∧ stat = pushStatus given := by
  induction h with
  | done n =>
    rw [pushItems_self]
    exact ⟨rfl, none, .done, rfl⟩
  | stop hlt hspec hne =>
    obtain ⟨hattempts, given, htries, rfl⟩ := hspec
    obtain ⟨i, rfl⟩ := pushStatus_ne hne
    rw [pushItems_next hlt]
    exact ⟨hattempts, some i, htries.stop _, rfl⟩
  | next hlt hspec _ ih =>
    obtain ⟨hattempts, given, htries, hgiven⟩ := hspec
    obtain rfl := pushStatus_eq hgiven
    obtain ⟨hattempts', given', htries', hstat⟩ := ih
    rw [pushItems_next hlt, attempts_append, replies_append, List.map_append, hattempts, hattempts']
    exact ⟨rfl, given', htries.append htries', hstat⟩

/-- All exchanges of a run of the receiver, up to a FLOW header that does not match, if there is one. -/
theorem tries_of_pullRounds {Γ : Libcrc} {t m n : Nat} {tr : List Event} {stat : Status} (h : Rounds (PullSpec Γ t) m n tr stat)
    (flow : FlowPacket) : attempts tr = (crcChecks Γ flow tr).map Prod.fst ∧
      ((stat = .badflow ∧ ∃ k, m ≤ k ∧ k < n ∧ Tries t (pullItems m k) (crcChecks Γ flow tr) none) ∨
        ∃ given, Tries t (pullItems m n) (crcChecks Γ flow tr) given ∧ stat = pullStatus given) := by
  induction h generalizing flow with
  | done n =>
    rw [pullItems_self]
    exact ⟨rfl, .inr ⟨none, .done, rfl⟩⟩
  | @stop m n tr stat hlt hspec hne =>
    obtain ⟨hattempts, ⟨hbad, hnil⟩ | ⟨given, htries, rfl⟩⟩ := hspec flow
    · refine ⟨hattempts, .inl ⟨hbad, m, Nat.le_refl m, hlt, ?_⟩⟩
      rw [hnil, pullItems_self]
      exact .done
    · refine ⟨hattempts, .inr ⟨given, ?_, rfl⟩⟩
      cases given with
      | none => exact absurd rfl hne
      | some i =>
        rw [pullItems_next hlt]
        exact htries.stop _
  | @next m n tr tr' stat hlt hspec _ ih =>
    obtain ⟨hattempts, hexchange⟩ := hspec flow
    obtain ⟨hattempts', hrest⟩ := ih (tr.foldl lastFlow flow)
    have htries : Tries t [.chunk (m + 1)] (crcChecks Γ flow tr) none := by
      rcases hexchange with ⟨hbad, _⟩ | ⟨given, htries, hgiven⟩
      · nomatch hbad
      · cases given with
        | none => exact htries
        | some i => nomatch hgiven
    rw [attempts_append, crcChecks_append, List.map_append, hattempts, hattempts']
    refine ⟨rfl, ?_⟩
    rcases hrest with ⟨hbad, k, hmk, hkn, htries'⟩ | ⟨given, htries', hstat⟩
    · refine .inl ⟨hbad, k, Nat.le_of_succ_le hmk, hkn, ?_⟩
      rw [pullItems_next hmk]
      exact htries.append htries'
    · rw [pullItems_next hlt]
      exact .inr ⟨given, htries.append htries', hstat⟩

theorem pushBudget_of_tries {t n : Nat} {tr : List Event} {given : Option Item} (ht : 0 < t)
    (hattempts : attempts tr = (replies tr).map Prod.fst) (h : Tries t (pushItems 0 n) (replies tr) given) :
    PushBudget t n tr (pushStatus given) where
  answered := hattempts
  tries := ⟨given, h⟩
  bounded := by
    intro i
    rw [hattempts]
    exact h.count_le (nodup_pushItems 0 n) i
  exptry0 := by
    simp only [← h.given_iff (nodup_pushItems 0 n) ht]
    rcases given with _ | _ | _ <;> simp [pushStatus]
  exptry1 := by
    simp only [← h.given_iff (nodup_pushItems 0 n) ht]
    rcases given with _ | _ | _ <;> simp [pushStatus]
  success := by
    rw [← h.none_iff (nodup_pushItems 0 n)]
    rcases given with _ | _ | _ <;> simp [pushStatus]
  status := by
    rcases given with _ | _ | _ <;> simp [pushStatus]

theorem pullBudget_of_tries {Γ : Libcrc} {t n : Nat} {tr : List Event} {given : Option Item} (ht : 0 < t)
    (hattempts : attempts tr = (crcChecks Γ emptyFlow tr).map Prod.fst)
    (h : Tries t (pullItems 0 n) (crcChecks Γ emptyFlow tr) given) : PullBudget Γ t n tr (pullStatus given) where
  answered := hattempts
  tries := by
    refine .inr ⟨?_, given, h⟩
    cases given <;> nofun
  bounded := by
    intro i
    rw [hattempts]
    exact h.count_le (nodup_pullItems 0 n) i
  exptry0 := by
    simp only [← h.given_iff (nodup_pullItems 0 n) ht]
    cases given with
    | none => simp [pullStatus]
    | some i =>
      obtain ⟨seq, -, rfl⟩ := List.mem_map.1 h.mem_of_given
      simp [pullStatus]
  success := by
    rw [← h.none_iff (nodup_pullItems 0 n)]
    cases given <;> simp [pullStatus]
  status := by
    cases given <;> simp [pullStatus]

/-- At a FLOW header that does not match, every chunk before it has been accepted and the one after has not been tried. -/
theorem pullBudget_of_badflow {Γ : Libcrc} {t m n : Nat} {tr : List Event} (ht : 0 < t) (hm : m < n)
    (hattempts : attempts tr = (crcChecks Γ emptyFlow tr).map Prod.fst)
    (h : Tries t (pullItems 0 m) (crcChecks Γ emptyFlow tr) none) : PullBudget Γ t n tr .badflow where
  answered := hattempts
  tries := .inl ⟨rfl, m, hm, h⟩
  bounded := by
    intro i
    rw [hattempts]
    exact h.count_le (nodup_pullItems 0 m) i
  exptry0 := by
    simp only [← h.given_iff (nodup_pullItems 0 m) ht]
    simp
  success := by
    refine iff_of_false nofun fun hall => ?_
    obtain ⟨k, -, haccepted⟩ := hall (.chunk n) (mem_pullItems.2 ⟨Nat.zero_lt_of_lt hm, Nat.le_refl n⟩)
    rw [h.answers_nil fun hmem => absurd (mem_pullItems.1 hmem).2 (Nat.not_le.2 hm)] at haccepted
    simp at haccepted
  status := .inr (.inr rfl)

end BudgetAux

open BudgetAux in
/-- Every FLOW header and every chunk has a budget of `tf_trycount` tries of its own, in both transfer loops: with enough rounds
neither is cut, and a run that nothing disturbs makes no more tries than that and goes on after the first acceptance, even of the
last try; it ends with EXPTRY0 or EXPTRY1 exactly when a header or a chunk is refused `tf_trycount` times in a row. -/
theorem retry_budgets (Γ : Libcrc) (s : Proc) (hcount : s.conf.chcount ≠ 4294967295) (htries : 1 ≤ s.conf.tfTrycount)
    (hseek : Seekable s.conf) :
    (∀ rounds, s.conf.chcount.toNat < rounds →
      (pushTransfer Γ rounds (beginTransfer s)).Complete ∧ (pullTransfer Γ rounds (beginTransfer s)).Complete) ∧
    (∀ rounds tr s' stat, Run (pushTransfer Γ rounds (beginTransfer s)) tr s' stat → (∀ e ∈ tr, Undisturbed .recv e) →
      PushBudget s.conf.tfTrycount s.conf.chcount.toNat tr stat) ∧
    (∀ rounds tr s' stat, Run (pullTransfer Γ rounds (beginTransfer s)) tr s' stat → (∀ e ∈ tr, Undisturbed .flow e) →
      PullBudget Γ s.conf.tfTrycount s.conf.chcount.toNat tr stat) := by
  have hn : s.conf.chcount.toNat + 1 < 2 ^ 32 := by
    have hlt := s.conf.chcount.toNat_lt
    have hne : s.conf.chcount.toNat ≠ 4294967295 := fun h => hcount (UInt32.toNat_inj.1 h)
    omega
  refine ⟨fun rounds hrounds => ⟨?_, ?_⟩, ?_, ?_⟩
  · exact (LoopsAux.endsAfterChunks_of_loop (LoopsAux.loop_push Γ) (LoopsAux.exchange_push Γ) (p := .flow) (fun _ => rfl) hcount).1
      rounds hrounds
  · exact (LoopsAux.endsAfterChunks_of_loop (LoopsAux.loop_pull Γ) (LoopsAux.exchange_pull Γ) (p := s.phase) (fun _ => rfl) hcount).1
      rounds hrounds
  · intro rounds tr s' stat hrun hall
    have hloop := under_loop (LoopsAux.loop_push Γ) (LoopsAux.pushTransferLoop_round Γ) (g := id) (under_pushExchange Γ) hn rounds 0
      { beginTransfer s with phase := .flow } rfl rfl rfl (Nat.zero_le _) hseek
    obtain ⟨hattempts, given, hgiven, rfl⟩ := tries_of_pushRounds (Tree.after_iff.1 (Tree.under_iff.1 hloop) _ _ _ hrun hall)
    exact pushBudget_of_tries htries hattempts hgiven
  · intro rounds tr s' stat hrun hall
    have hloop := under_loop (LoopsAux.loop_pull Γ) (LoopsAux.pullTransferLoop_round Γ) (g := fun s => { s with phase := .flow })
      (fun s => under_pullExchange Γ { s with phase := .flow } rfl) hn rounds 0 (beginTransfer s) rfl rfl rfl (Nat.zero_le _) hseek
    obtain ⟨hattempts, hbudget⟩ := tries_of_pullRounds (Tree.after_iff.1 (Tree.under_iff.1 hloop) _ _ _ hrun hall) emptyFlow
    rcases hbudget with ⟨rfl, m, -, hm, hgiven⟩ | ⟨given, hgiven, rfl⟩
    · exact pullBudget_of_badflow htries hm hattempts hgiven
    · exact pullBudget_of_tries htries hattempts hgiven

namespace BudgetRun

/-- A sender of one byte with two tries. -/
def sender : InitConfig :=
  { Sample.receiver with chsize := 2, pchsize := 1, chcount := 1, tfTrycount := 2, filec := { Sample.receiver.filec with
      size := 1, mfile := { file := some 5, isOpen := true, size := 1, pos := 0, buf := [7] } } }

/-- Its FLOW header is refused and then accepted, and so is its chunk. -/
def stream : Bytes := [0, 1, 0, 1].flatMap (fun ack => (packRecvPacket ack 0 1).bytes)

/-- The status of a transfer with these answers, whether anything disturbed it, and its answers. -/
def outcome (t : Tree Status) : Option Status × Bool × List (Item × Bool) :=
  ((play Sample.env stream t).2.map Prod.snd, (play Sample.env stream t).1.all (fun e => Undisturbed .recv e),
    replies (play Sample.env stream t).1)

theorem run_of_outcome {t : Tree Status} {stat : Status} {answered : List (Item × Bool)} (h : outcome t = (some stat, true, answered)) :
    ∃ tr s, Run t tr s stat ∧ (∀ e ∈ tr, Undisturbed .recv e) ∧ replies tr = answered := by
  obtain ⟨hstat, h⟩ := Prod.mk.inj h
  obtain ⟨hall, hanswered⟩ := Prod.mk.inj h
  obtain ⟨⟨s, stat⟩, hplay, rfl⟩ := Option.map_eq_some_iff.1 hstat
  exact ⟨_, s, run_play Sample.env hplay, by simpa using hall, hanswered⟩

theorem seekable_sender : Seekable sender := by
  intro seq hone hle
  obtain rfl : seq = 1 := UInt32.le_antisymm hle hone
  rfl

end BudgetRun

open BudgetRun in
/-- With two tries, a header and a chunk that are both accepted at the second. -/
theorem retry_budgets_two : ∃ tr, replies tr = [(.header 1, false), (.header 1, true), (.chunk 1, false), (.chunk 1, true)] ∧
    PushBudget 2 1 tr .success := by
  have houtcome : outcome (pushTransfer Sample.zero 2 (beginTransfer ⟨sender, .setup⟩)) =
      (some .success, true, [(.header 1, false), (.header 1, true), (.chunk 1, false), (.chunk 1, true)]) := by decide +kernel
  obtain ⟨tr, s, hrun, hall, hreplies⟩ := run_of_outcome houtcome
  have hbudgets := retry_budgets Sample.zero ⟨sender, .setup⟩ nofun (by decide) seekable_sender
  exact ⟨tr, hreplies, hbudgets.2.1 2 tr s _ hrun hall⟩

end RufShare
