import RufShare.Lemmas.Within

/-!
# Delivery of a byte stream

What a party may read of the stream its peer has sent. `Delivers` allows every way TCP may cut the stream into pieces; `atOnce` is
the system that has all the bytes at hand, and a run without a short `recv` is the run against it.
-/

namespace RufShare

open Resumption

/-- The stream `w` may be delivered as the calls of `tr` received it: a `poll` sees whether bytes are left, and a `recv` gets a
prefix of them, not empty unless none are left, which it takes off the stream unless it peeks. -/
def Delivers : Bytes → List Event → Prop
  | _, [] => True
  | w, ⟨_, .poll .stream _ .pollin _, r⟩ :: tr => (r = if w = [] then .timeout else .ready true) ∧ Delivers w tr
  | w, ⟨_, .recv .stream _ size peek, r⟩ :: tr =>
    ∃ b : { b : Bytes // b.length ≤ size }, r = some b ∧ b.1 <+: w ∧ (w ≠ [] → size ≠ 0 → b.1 ≠ []) ∧
      Delivers (if peek then w else w.drop b.1.length) tr
  | w, _ :: tr => Delivers w tr

/-- The system that has all the bytes of the stream at hand. -/
def atOnce (w : Bytes) (s : Proc) : (c : Call) → c.Answer × Bytes
  | .poll .stream _ .pollin _ => (if w = [] then .timeout else .ready true, w)
  | .recv .stream _ size peek => (some ⟨w.take size, List.length_take_le _ _⟩, if peek then w else w.drop size)
  | c => Sample.env w s c

/-- A `recv` that returned fewer bytes than it asked for. -/
def ShortRecv : Event → Prop
  | ⟨_, .recv _ _ size _, r⟩ => ∃ b : { b : Bytes // b.length ≤ size }, r = some b ∧ b.1.length < size
  | _ => False

/-- A call that reads from a socket or waits for it. -/
def Reads : Call → Prop
  | .poll .stream _ .pollin _ => True
  | .recv .stream _ _ _ => True
  | _ => False

/-- A run that reads a stream without a short `recv` is the run with all the bytes at hand. -/
theorem play_of_run {α : Type} {t : Tree α} {tr : List Event} {s : Proc} {a : α} {w : Bytes} {tr' : List Event}
    (h : Run t tr s a) (hreads : ∀ e ∈ tr, Reads e.call) (hlong : ∀ e ∈ tr, ¬ShortRecv e) (hd : Delivers w (tr ++ tr')) :
    (play atOnce w t).2 = some (s, a) ∧ Delivers (residue atOnce w t) tr' := by
  induction h generalizing w with
  | ret s a => exact ⟨rfl, hd⟩
  | @call s s' c k r tr a _ ih =>
    rw [List.forall_mem_cons] at hreads hlong
    cases c with
    | poll ty fd ev timeout =>
      cases ty with
      | dgram => exact hreads.1.elim
      | stream =>
        cases ev with
        | pollin =>
          obtain ⟨rfl, hd⟩ := hd
          exact ih hreads.2 hlong.2 hd
        | pollout => exact hreads.1.elim
    | recv ty fd size peek =>
      cases ty with
      | dgram => exact hreads.1.elim
      | stream =>
        obtain ⟨b, rfl, hpre, _, hd⟩ := hd
        have hsize : b.1.length = size := by
          have hle := b.2
          have : ¬b.1.length < size := fun hlt => hlong.1 ⟨b, rfl, hlt⟩
          omega
        have hb : b.1 = w.take size := (List.prefix_iff_eq_take.1 hpre).trans (by rw [hsize])
        obtain ⟨b, hle⟩ := b
        simp only at hb hsize hd
        subst hb
        rw [hsize] at hd
        exact ih hreads.2 hlong.2 hd
    | _ => exact hreads.1.elim

/-! ## What pulls report -/

/-- The calls read, and a short `recv` among them shows in the status. -/
def Honest (tr : List Event) (stat : Status) : Prop :=
  (∀ e ∈ tr, Reads e.call) ∧ ((∃ e ∈ tr, ShortRecv e) → stat = .lowsize)

theorem Honest.nil (stat : Status) : Honest [] stat := ⟨by simp, by simp⟩

/-- After a success nothing was short, so the status of the rest tells for both. -/
theorem Honest.append {tr tr' : List Event} {stat stat' : Status} (h : Honest tr stat) (hs : stat = .success)
    (h' : Honest tr' stat') : Honest (tr ++ tr') stat' := by
  refine ⟨List.forall_mem_append.2 ⟨h.1, h'.1⟩, ?_⟩
  intro hshort
  obtain ⟨e, he, hsh⟩ := hshort
  rcases List.mem_append.1 he with he | he
  · have := h.2 ⟨e, he, hsh⟩
    rw [hs] at this
    nomatch this
  · exact h'.2 ⟨e, he, hsh⟩

theorem honest_pullTcpData (sock : Sockfd) (size : Nat) (peek : Bool) (s : Proc) :
    (pullTcpData sock size peek s).After (fun tr s' got => s' = s ∧ Honest tr got.1) := by
  unfold pullTcpData
  refine after_syscall fun received => ?_
  cases received with
  | none => exact ⟨rfl, by simp [Reads], by simp [ShortRecv]⟩
  | some b =>
    refine after_ite (fun _ => ⟨rfl, by simp [Reads], fun _ => rfl⟩) (fun hb => ⟨rfl, by simp [Reads], ?_⟩)
    intro hshort
    simp only [List.mem_singleton, exists_eq_left, ShortRecv, Option.some.injEq] at hshort
    obtain ⟨_, rfl, hlt⟩ := hshort
    exact absurd hlt hb

theorem honest_pullType (sock : Sockfd) (type : PacketType) (timeout : Int) (s : Proc) :
    (pullType sock type timeout s).After (fun tr s' stat => s' = s ∧ Honest tr stat) := by
  have hpoll (r : PollResult) (stat : Status) :
      Honest [⟨s, .poll .stream sock .pollin timeout, r⟩] stat := ⟨by simp [Reads], by simp [ShortRecv]⟩
  unfold pullType
  refine after_syscall fun polled => ?_
  cases polled with
  | error => exact ⟨rfl, hpoll _ _⟩
  | timeout => exact ⟨rfl, hpoll _ _⟩
  | ready hit =>
    refine after_ite (fun _ => ⟨rfl, hpoll _ _⟩) (fun _ => after_bind_of (honest_pullTcpData sock 1 true s) ?_)
    intro tr s₁ got h
    obtain ⟨rfl, h⟩ := h
    have hall (stat : Status) (hs : Honest tr stat) :
        Honest (⟨s₁, .poll .stream sock .pollin timeout, .ready hit⟩ :: (tr ++ [])) stat := by
      rw [List.append_nil]
      exact (hpoll (.ready hit) .success).append rfl hs
    refine after_ite (fun _ => ⟨rfl, hall _ h⟩) (fun hgot => ?_)
    have hclean (stat : Status) : Honest tr stat := by
      have := h.append (Decidable.not_not.1 hgot) (Honest.nil stat)
      rwa [List.append_nil] at this
    exact after_ite (fun _ => ⟨rfl, hall _ (hclean _)⟩) (fun _ => ⟨rfl, hall _ (hclean _)⟩)

theorem honest_pullPacket (sock : Sockfd) (type : PacketType) (timeout : Int) (s : Proc) :
    (pullPacket sock type timeout s).After (fun tr s' got => s' = s ∧ Honest tr got.1) := by
  unfold pullPacket
  refine after_bind_of (honest_pullType sock type timeout s) ?_
  intro tr s₁ stat h
  obtain ⟨rfl, h⟩ := h
  refine after_ite (fun _ => ⟨rfl, by rwa [List.append_nil]⟩) (fun hs => ?_)
  refine (honest_pullTcpData sock _ false s₁).mono ?_
  intro tr' s₂ got h'
  exact ⟨h'.1, h.append (Decidable.not_not.1 hs) h'.2⟩

section Headers

variable {β : Type} (sock : Sockfd) (type : PacketType) (timeout : Int) (s : Proc) (args : β)

/-- A header that is a packet only. -/
theorem honest_packetOnly (decode : Bytes → β) :
    ((pullPacket sock type timeout >>= fun got =>
      if got.1 ≠ .success then pure (got.1, args) else pure (got.1, decode got.2)) s).After
      (fun tr s' got => s' = s ∧ Honest tr got.1 ∧ (got.1 ≠ .success → got.2 = args)) := by
  refine after_bind_of (honest_pullPacket sock type timeout s) ?_
  intro tr s₁ got h
  obtain ⟨rfl, h⟩ := h
  refine after_ite (fun _ => ⟨rfl, by rwa [List.append_nil], fun _ => rfl⟩) (fun hs => ⟨rfl, by rwa [List.append_nil], ?_⟩)
  intro hne
  exact absurd hne hs

/-- A header with an infostring after the packet. -/
theorem honest_packetInfostr (decode : Bytes → Bytes → β) :
    ((pullPacket sock type timeout >>= fun got => if got.1 ≠ .success then pure (got.1, args) else
      pullTcpData sock infostrSize false >>= fun got' =>
        if got'.1 ≠ .success then pure (got'.1, args) else pure (got'.1, decode got.2 got'.2)) s).After
      (fun tr s' got => s' = s ∧ Honest tr got.1 ∧ (got.1 ≠ .success → got.2 = args)) := by
  refine after_bind_of (honest_pullPacket sock type timeout s) ?_
  intro tr s₁ got h
  obtain ⟨rfl, h⟩ := h
  refine after_ite (fun _ => ⟨rfl, by rwa [List.append_nil], fun _ => rfl⟩) (fun hs => ?_)
  refine after_bind_of (honest_pullTcpData sock infostrSize false s₁) ?_
  intro tr' s₂ got' h'
  obtain ⟨rfl, h'⟩ := h'
  have hall : Honest (tr ++ (tr' ++ [])) got'.1 := by
    rw [List.append_nil]
    exact h.append (Decidable.not_not.1 hs) h'
  refine after_ite (fun _ => ⟨rfl, hall, fun _ => rfl⟩) (fun hs' => ⟨rfl, hall, ?_⟩)
  intro hne
  exact absurd hne hs'

end Headers

/-! ## Headers read whole -/

/-- With the stream `w` at hand, `x` leaves the state, returns `a` and leaves `w'` of the stream. -/
def ReadsWhole {α : Type} (x : Prog α) (s : Proc) (w : Bytes) (a : α) (w' : Bytes) : Prop :=
  (play atOnce w (x s)).2 = some (s, a) ∧ residue atOnce w (x s) = w'

section ReadsWhole

variable {α β : Type} {s : Proc} {w m w' : Bytes} {a : α} {b : β}

theorem ReadsWhole.pure : ReadsWhole (pure a : Prog α) s w a w := ⟨rfl, rfl⟩

theorem ReadsWhole.bind {x : Prog α} {f : α → Prog β} (hx : ReadsWhole x s w a m) (hf : ReadsWhole (f a) s m b w') :
    ReadsWhole (x >>= f) s w b w' := by
  obtain ⟨hx, rfl⟩ := hx
  exact ⟨(play_bind atOnce hx).trans hf.1, (residue_bind atOnce hx).trans hf.2⟩

theorem ReadsWhole.ite_neg {c : Prop} [Decidable c] {x y : Prog α} (hc : ¬c) (h : ReadsWhole y s w a w') :
    ReadsWhole (if c then x else y) s w a w' := by
  rw [if_neg hc]
  exact h

/-- A run to which the stream was delivered without a short `recv`. -/
theorem ReadsWhole.of_run {x : Prog α} {tr tr' : List Event} {s₁ : Proc} {a' : α} (hx : ReadsWhole x s w a w')
    (hrun : Run (x s) tr s₁ a') (hreads : ∀ e ∈ tr, Reads e.call) (hlong : ∀ e ∈ tr, ¬ShortRecv e)
    (hd : Delivers w (tr ++ tr')) : s₁ = s ∧ a' = a ∧ Delivers w' tr' := by
  obtain ⟨hplay, hrest⟩ := play_of_run hrun hreads hlong hd
  obtain ⟨hx, rfl⟩ := hx
  obtain ⟨rfl, rfl⟩ := Prod.mk.inj (Option.some.inj (hx.symm.trans hplay))
  exact ⟨rfl, rfl, hrest⟩

end ReadsWhole

theorem readsWhole_pullTcpData (sock : Sockfd) {size : Nat} (peek : Bool) (s : Proc) {b : Bytes} (rest : Bytes)
    (hb : b.length = size) :
    ReadsWhole (pullTcpData sock size peek) s (b ++ rest) (.success, b) (if peek then b ++ rest else rest) := by
  unfold pullTcpData
  refine .bind (a := some ⟨b, by omega⟩) (m := if peek then b ++ rest else rest) ?_ (.ite_neg (by simp [hb]) .pure)
  have htake : (b ++ rest).take size = b := List.take_left' hb
  have hdrop : (b ++ rest).drop size = rest := List.drop_left' hb
  refine ⟨?_, ?_⟩
  · simp [play, atOnce, htake]
  · simp [residue, atOnce, hdrop]

theorem length_packIntoInfostring (info : CntlAddrs) : (packIntoInfostring info).length = infostrSize := by
  simp only [packIntoInfostring, List.length_append, List.length_replicate]
  rw [List.length_take]
  unfold infostrSize
  omega

theorem readsWhole_pullPacket (sock : Sockfd) (type : PacketType) (timeout : Int) (s : Proc) {b : Bytes} (rest : Bytes)
    (hb : b.length = type.size) (ht : byteAt b 0 = type.code) :
    ReadsWhole (pullPacket sock type timeout) s (b ++ rest) (.success, b) rest := by
  obtain ⟨c, b, rfl⟩ : ∃ c b', b = c :: b' := by
    cases b with
    | nil => cases type <;> nomatch hb
    | cons c b' => exact ⟨c, b', rfl⟩
  unfold pullPacket
  refine .bind (a := .success) (m := c :: b ++ rest) ?_ (.ite_neg (fun h => h rfl) ?_)
  · unfold pullType
    refine .bind (a := PollResult.ready true) (m := c :: b ++ rest) ⟨rfl, rfl⟩ ?_
    refine .ite_neg nofun ?_
    refine .bind (readsWhole_pullTcpData sock true s (b := [c]) (b ++ rest) rfl) (.ite_neg (fun h => h rfl) ?_)
    exact .ite_neg (fun h => h ht.symm) .pure
  · exact readsWhole_pullTcpData sock false s rest hb

section Headers

variable {β : Type} (sock : Sockfd) (type : PacketType) (timeout : Int) (s : Proc) (args : β) {b : Bytes} (rest : Bytes)

/-- Reading a header that is a packet only. -/
theorem readsWhole_packetOnly (decode : Bytes → β) (hb : b.length = type.size) (ht : byteAt b 0 = type.code) :
    ReadsWhole (pullPacket sock type timeout >>= fun got =>
      if got.1 ≠ .success then pure (got.1, args) else pure (got.1, decode got.2)) s (b ++ rest) (.success, decode b) rest :=
  .bind (readsWhole_pullPacket sock type timeout s rest hb ht) (.ite_neg (fun h => h rfl) .pure)

/-- Reading a header with an infostring after the packet. -/
theorem readsWhole_packetInfostr (decode : Bytes → Bytes → β) (hb : b.length = type.size) (ht : byteAt b 0 = type.code)
    (info : CntlAddrs) :
    ReadsWhole (pullPacket sock type timeout >>= fun got => if got.1 ≠ .success then pure (got.1, args) else
      pullTcpData sock infostrSize false >>= fun got' =>
        if got'.1 ≠ .success then pure (got'.1, args) else pure (got'.1, decode got.2 got'.2)) s
      (b ++ packIntoInfostring info ++ rest) (.success, decode b (packIntoInfostring info)) rest := by
  rw [List.append_assoc]
  refine .bind (readsWhole_pullPacket sock type timeout s _ hb ht) (.ite_neg (fun h => h rfl) ?_)
  exact .bind (readsWhole_pullTcpData sock false s rest (length_packIntoInfostring info)) (.ite_neg (fun h => h rfl) .pure)

end Headers

/-- Reading the SEND header that `push_SEND_header` sends. -/
theorem readsWhole_pullSendHeader (sock : Sockfd) (args : SendArgs) (timeout : Int) (s : Proc) (sent : SendArgs) (rest : Bytes)
    (ht : sent.packet.type = PacketType.code .send) :
    ReadsWhole (pullSendHeader sock args timeout) s (sent.packet.bytes ++ packIntoInfostring sent.info ++ rest)
      (.success, { packet := convertSendPacket sent.packet,
                   info := unpackFromInfostring (packIntoInfostring sent.info) args.info }) rest := by
  have h := readsWhole_packetInfostr sock .send timeout s args rest (fun packet infostr =>
    { packet := convertSendPacket (.ofBytes packet), info := unpackFromInfostring infostr args.info })
    (SendPacket.length_bytes sent.packet) ht sent.info
  rw [SendPacket.ofBytes_bytes] at h
  exact h

/-- Reading the RECV header that `push_RECV_header` sends. -/
theorem readsWhole_pullRecvHeader (sock : Sockfd) (args : RecvPacket) (timeout : Int) (s : Proc) (sent : RecvPacket) (rest : Bytes)
    (ht : sent.type = PacketType.code .recv) :
    ReadsWhole (pullRecvHeader sock args timeout) s (sent.bytes ++ rest) (.success, convertRecvPacket sent) rest := by
  have h := readsWhole_packetOnly sock .recv timeout s args rest (fun packet => convertRecvPacket (.ofBytes packet))
    (RecvPacket.length_bytes sent) ht
  rw [RecvPacket.ofBytes_bytes] at h
  exact h

/-- Calls that push do not touch what is delivered. -/
theorem Delivers.of_pushes {w : Bytes} {tr tr' : List Event} (hp : ∀ e ∈ tr, e.call.Pushes) (h : Delivers w (tr ++ tr')) :
    Delivers w tr' := by
  induction tr with
  | nil => exact h
  | cons e tr ih =>
    rw [List.forall_mem_cons] at hp
    obtain ⟨s, c, r⟩ := e
    refine ih hp.2 ?_
    cases c with
    | malloc size => exact h
    | send ty fd buf => exact h
    | poll ty fd ev timeout =>
      cases ty <;> cases ev
      case stream.pollout => exact h
      all_goals exact hp.1.elim
    | _ => exact hp.1.elim

section Delivers

variable {s : Proc} {fd : Sockfd} {w : Bytes} {tr : List Event}

theorem Delivers.ready {timeout : Int} (hw : w ≠ []) (h : Delivers w tr) :
    Delivers w (⟨s, .poll .stream fd .pollin timeout, PollResult.ready true⟩ :: tr) :=
  ⟨(if_neg hw).symm, h⟩

theorem Delivers.peek {c : UInt8} (h : Delivers (c :: w) tr) :
    Delivers (c :: w) (⟨s, .recv .stream fd 1 true, some ⟨[c], Nat.le_refl 1⟩⟩ :: tr) :=
  ⟨⟨[c], Nat.le_refl 1⟩, rfl, ⟨w, rfl⟩, fun _ _ => nofun, h⟩

theorem Delivers.recv {size : Nat} {b w' : Bytes} {hb : b.length ≤ size} (hw : w' = b ++ w) (hne : b ≠ [])
    (h : Delivers w tr) : Delivers w' (⟨s, .recv .stream fd size false, some ⟨b, hb⟩⟩ :: tr) := by
  subst hw
  refine ⟨⟨b, hb⟩, rfl, List.prefix_append b w, fun _ _ => hne, ?_⟩
  rw [if_neg nofun, List.drop_left]
  exact h

end Delivers

/-- Nothing is delivered to calls that do not read. -/
theorem delivers_of_not_reads {w : Bytes} {tr : List Event} (h : ∀ e ∈ tr, ¬Reads e.call) : Delivers w tr := by
  induction tr with
  | nil => trivial
  | cons e tr ih =>
    rw [List.forall_mem_cons] at h
    have ih := ih h.2
    obtain ⟨s, c, r⟩ := e
    cases c with
    | poll ty fd ev timeout =>
      cases ty <;> cases ev
      case stream.pollin => exact absurd trivial h.1
      all_goals exact ih
    | recv ty fd size peek =>
      cases ty with
      | stream => exact absurd trivial h.1
      | dgram => exact ih
    | _ => exact ih

/-! ## What a run sends -/

/-- The bytes a call sends on the control channel, if it does. -/
def sentBuf : Event → Option Bytes
  | ⟨_, .send .stream _ buf, _⟩ => some buf
  | _ => none

/-- The bytes a run has sent on the control channel. -/
def sentStream (tr : List Event) : Bytes := (tr.filterMap sentBuf).flatten

theorem sentStream_append (tr tr' : List Event) : sentStream (tr ++ tr') = sentStream tr ++ sentStream tr' := by
  simp [sentStream]

/-- A call that reads sends nothing. -/
theorem sentBuf_of_reads {e : Event} (h : Reads e.call) : sentBuf e = none := by
  unfold sentBuf
  split
  · exact h.elim
  · rfl

theorem sentStream_of_reads {tr : List Event} (h : ∀ e ∈ tr, Reads e.call) : sentStream tr = [] := by
  rw [sentStream, List.filterMap_eq_nil_iff.2 (fun e he => sentBuf_of_reads (h e he))]
  rfl

theorem not_short_of_succeeded {e : Event} (h : Succeeded e) : ¬ShortRecv e := by
  intro hs
  obtain ⟨s, c, r⟩ := e
  cases c with
  | recv ty fd size peek =>
    obtain ⟨b, rfl, hlt⟩ := hs
    exact absurd hlt (Nat.not_lt.2 h)
  | _ => exact hs.elim

end RufShare
