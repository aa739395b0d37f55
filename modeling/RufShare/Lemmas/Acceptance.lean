import RufShare.Lemmas.Sender

/-!
# A receiver whose calls succeed

The role of the receiver lets it refuse any offer. Here is what it does when its calls succeed and there is room for a file: it
accepts, whatever the offer says but for the size, and then has the offer's addresses. And a receiver that has accepted opens its data
socket unless the addresses are not valid.
-/

namespace RufShare

open Resumption

/-- There is room for the file, unless it is as large as can be. -/
def Roomy (s : Proc) : (c : Call) → c.Answer → Prop
  | .fstatvfs _, some (fBavail, fBsize) => s.conf.filec.size < 2 ^ 64 - 1 → s.conf.filec.size < fBavail * fBsize % 2 ^ 64
  | _, _ => True

/-- The addresses of a receiver that has stored an offer with this infostring. -/
def acceptedAddrs (garbage : SendArgs) (c : InitConfig) (infostr : Bytes) : CntlAddrs :=
  (storeOffer { garbage with info := unpackFromInfostring infostr garbage.info } c).addrs

namespace Acceptance

/-- The last read of the control channel, and whether a header has been pushed. -/
structure View where
  info : Bytes
  answered : Bool

/-- The answer to an offer. -/
structure Accepts (garbage : SendArgs) (c : InitConfig) (info : Bytes) (s : Proc) (buf : Bytes) : Prop where
  tries : s.conf.tfTrycount = c.tfTrycount
  addrs : s.conf.addrs = acceptedAddrs garbage c info
  ack : s.conf.filec.size ≠ 0 → s.conf.filec.size < 2 ^ 64 - 1 → buf = (packRecvPacket 1 0 0).bytes

/-- The view after a call. -/
def next (v : View) : (c : Call) → c.Answer → View
  | .recv .stream _ _ false, some b => { v with info := b.1 }
  | .send .stream _ _, _ => { v with answered := true }
  | _, _ => v

/-- A receiver whose calls succeed, up to its answer to the offer. `c` is its configuration at the beginning. -/
def monitor (garbage : SendArgs) (c : InitConfig) : Monitor Proc Call.Answer View where
  hold _ _ := True
  guar v s call := v.answered = false → s.phase = .handshake ∧
    ∀ fd buf, call = .send .stream fd buf → Accepts garbage c v.info s buf
  rely _ s call r := call.Succeeds r ∧ Roomy s call r
  next v _ call r := next v call r

/-- A call that leaves the view. -/
def Quiet : Call → Prop
  | .recv .stream _ _ false | .send .stream _ _ => False
  | _ => True

section

variable {garbage : SendArgs} {c : InitConfig} {v : View} {s : Proc}

theorem next_quiet {call : Call} (h : Quiet call) (r : call.Answer) : next v call r = v := by
  cases call with
  | send ty fd buf =>
    cases ty with
    | stream => exact h.elim
    | dgram => rfl
  | recv ty fd size peek =>
    cases ty with
    | stream =>
      cases peek with
      | false => exact h.elim
      | true => rfl
    | dgram => rfl
  | _ => rfl

/-- Once the offer is answered nothing more is asked. -/
theorem sat_answered {α : Type} {Q : View → Proc → α → Prop} (hv : v.answered = true) (hQ : ∀ v s a, Q v s a) (t : Tree α) :
    t.Sat (monitor garbage c) v Q := by
  induction t generalizing v with
  | ret s a => exact hQ v s a
  | cut s => trivial
  | call s call k ih =>
    refine ⟨trivial, fun hfalse => absurd (hv.symm.trans hfalse) Bool.noConfusion, fun r _ => ih r ?_⟩
    change (next v call r).answered = true
    unfold next
    split
    · exact hv
    · rfl
    · exact hv

variable {β : Type} {Q : View → Proc → β → Prop} (hphase : s.phase = .handshake)
include hphase

theorem sat_quiet {call : Call} {f : call.Answer → Prog β} (hc : Quiet call)
    (hk : ∀ r, call.Succeeds r → Roomy s call r → (f r s).Sat (monitor garbage c) v Q) :
    ((syscall call >>= f) s).Sat (monitor garbage c) v Q := by
  refine ⟨trivial, fun _ => ⟨hphase, ?_⟩, fun r hr => ?_⟩
  · rintro fd buf rfl
    exact hc.elim
  · change Tree.Sat _ _ (next v call r) _
    rw [next_quiet hc]
    exact hk r hr.1 hr.2

/-! ## The offer -/

theorem sat_pullType {Q : View → Proc → Status → Prop} {sock : Sockfd} {type : PacketType} {timeout : Int} (hQ : ∀ stat, Q v s stat) :
    (pullType sock type timeout s).Sat (monitor garbage c) v Q := by
  unfold pullType
  refine sat_quiet hphase trivial fun polled hpolled _ => ?_
  obtain rfl : polled = .ready true := hpolled
  refine sat_ite Bool.noConfusion fun _ => sat_bind ?_
  unfold pullTcpData
  refine sat_quiet hphase trivial fun received hreceived _ => ?_
  cases received with
  | none => exact hreceived.elim
  | some b =>
    refine sat_ite (fun hlow => absurd hreceived (Nat.not_le.2 hlow)) fun _ => sat_pure ?_
    exact sat_ite (fun hne => absurd rfl hne) fun _ => sat_ite (fun _ => hQ _) (fun _ => hQ _)

theorem sat_pullTcpData {Q : View → Proc → Status × Bytes → Prop} {sock : Sockfd} {size : Nat}
    (hQ : ∀ stat b, Q { v with info := b } s (stat, b)) : (pullTcpData sock size false s).Sat (monitor garbage c) v Q := by
  unfold pullTcpData
  refine ⟨trivial, fun _ => ⟨hphase, nofun⟩, ?_⟩
  rintro received ⟨hreceived, _⟩
  cases received with
  | none => exact hreceived.elim
  | some b => exact sat_ite (fun _ => hQ _ _) (fun _ => hQ _ _)

theorem sat_pullSendHeader {Q : View → Proc → Status × SendArgs → Prop} {sock : Sockfd} {args : SendArgs} {timeout : Int}
    (hok : ∀ packet info, Q { v with info := info } s (.success, { packet := packet, info := unpackFromInfostring info args.info }))
    (hfail : ∀ info stat, stat ≠ .success → Q { v with info := info } s (stat, args)) :
    (pullSendHeader sock args timeout s).Sat (monitor garbage c) v Q := by
  unfold pullSendHeader pullPacket
  refine sat_bind (sat_bind (sat_pullType hphase fun stat => ?_))
  refine sat_ite (fun hne => sat_pure (sat_ite (fun _ => hfail v.info stat hne) (fun heq => absurd hne heq))) fun _ => ?_
  refine sat_pullTcpData hphase fun stat b => ?_
  refine sat_ite (fun hne => sat_pure (hfail b stat hne)) fun _ => sat_bind (sat_pullTcpData hphase fun stat info => ?_)
  exact sat_ite (fun hne => sat_pure (hfail info stat hne)) fun heq => sat_pure (by rw [Decidable.not_not.1 heq]; exact hok _ info)

/-! ## The file -/

theorem sat_createFile {Q : View → Proc → Status → Prop} (path : Bytes)
    (hQ : ∀ stat, (s.conf.filec.size ≠ 0 → s.conf.filec.size < 2 ^ 64 - 1 → stat = .success) → Q v s stat) :
    (createFile path s.conf.filec.size s).Sat (monitor garbage c) v Q := by
  unfold createFile
  refine sat_quiet hphase trivial fun opened hopened _ => ?_
  obtain ⟨file, rfl⟩ := Option.isSome_iff_exists.1 hopened
  refine sat_ite (fun hzero => ?_) fun _ => sat_quiet hphase trivial fun info hinfo hroom => ?_
  · exact sat_quiet hphase trivial fun _ _ _ => sat_pure (hQ _ fun hne => absurd hzero hne)
  · obtain ⟨⟨fBavail, fBsize⟩, rfl⟩ := Option.isSome_iff_exists.1 hinfo
    refine sat_ite (fun hfull => ?_) fun _ => sat_quiet hphase trivial fun truncated htruncated _ => ?_
    · exact sat_quiet hphase trivial fun _ _ _ => sat_pure (hQ _ fun _ hlt => absurd hfull (Nat.not_le.2 (hroom hlt)))
    · obtain rfl : truncated = true := htruncated
      exact sat_ite Bool.noConfusion fun _ => sat_pure (hQ _ fun _ _ => rfl)

theorem sat_mfopen {Q : View → Proc → MFile → Prop} (path : Bytes) (hQ : ∀ mfile, mfile.isOpen = true → Q v s mfile) :
    (mfopen path .rplus s).Sat (monitor garbage c) v Q := by
  unfold mfopen
  refine sat_quiet hphase trivial fun opened hopened _ => ?_
  obtain ⟨file, rfl⟩ := Option.isSome_iff_exists.1 hopened
  refine sat_quiet hphase trivial fun info hinfo _ => ?_
  obtain ⟨stSize, rfl⟩ := Option.isSome_iff_exists.1 hinfo
  refine sat_quiet hphase trivial fun mapped hmapped _ => ?_
  obtain ⟨buf, rfl⟩ := Option.isSome_iff_exists.1 hmapped
  exact sat_pure (hQ _ rfl)

theorem sat_startFileStream {Q : View → Proc → Status → Prop} (path : Bytes)
    (hQ : ∀ mfile name stat, (s.conf.filec.size ≠ 0 → s.conf.filec.size < 2 ^ 64 - 1 → stat = .success) →
      Q v { s with conf := { s.conf with filec := { s.conf.filec with mfile := mfile, name := name } } } stat) :
    (startFileStream path .mwr s).Sat (monitor garbage c) v Q := by
  unfold startFileStream prepareFile
  refine sat_bind (sat_conf (sat_createFile hphase path fun stat hstat => ?_))
  refine sat_ite (fun _ => sat_pure (hQ s.conf.filec.mfile s.conf.filec.name stat hstat)) fun _ => ?_
  refine sat_bind (sat_mfopen hphase path fun mfile hopen => ?_)
  refine sat_ite (fun h => absurd h (by rw [hopen]; decide)) fun _ => sat_setConf ?_
  exact sat_setConf (sat_pure (hQ mfile _ .success fun _ _ => rfl))

/-! ## The answer -/

theorem sat_pushHeader {Q : View → Proc → Status → Prop} {sock : Sockfd} {buf : Bytes} {timeout : Int}
    (hbuf : Accepts garbage c v.info s buf) (hQ : ∀ stat, Q { v with answered := true } s stat) :
    (pushHeader sock buf timeout s).Sat (monitor garbage c) v Q := by
  unfold pushHeader
  refine sat_quiet hphase trivial fun allocated hallocated _ => ?_
  obtain rfl : allocated = true := hallocated
  refine sat_ite Bool.noConfusion fun _ => sat_quiet hphase trivial fun polled hpolled _ => ?_
  obtain rfl : polled = .ready true := hpolled
  refine sat_ite (fun _ => ?_) (fun h => absurd rfl h)
  unfold pushTcpData
  refine ⟨trivial, fun _ => ⟨hphase, ?_⟩, ?_⟩
  · rintro fd buf' h
    cases h
    exact hbuf
  · rintro sent _
    cases sent with
    | none => exact hQ _
    | some n => exact sat_ite (fun _ => hQ _) (fun _ => hQ _)

omit hphase in
/-- The comparisons of `ISVALID_SEND_HEADER` are never false. -/
theorem isValidSendHeader_eq (p : SendPacket) : isValidSendHeader p = true := by
  unfold isValidSendHeader
  rw [decide_eq_true (Nat.zero_le _)]
  rfl

end

/-- A receiver that ends its handshake with success has answered. -/
theorem sat_pullHandshake {garbage : SendArgs} {v : View} {s : Proc} :
    (pullHandshake garbage s).Sat (monitor garbage s.conf) v (fun v _ stat => stat = .success → v.answered = true) := by
  unfold pullHandshake
  refine sat_enter (sat_conf (sat_bind (sat_pullSendHeader rfl ?_ ?_)))
  · intro packet info
    refine sat_ite (fun hne => absurd rfl hne) fun _ => sat_ite (fun h => ?_) fun _ => sat_setConf (sat_conf (sat_bind ?_))
    · rw [isValidSendHeader_eq] at h
      exact absurd h Bool.false_ne_true
    · refine sat_startFileStream rfl _ fun mfile name stat hstat => sat_bind (sat_pushHeader rfl ⟨rfl, rfl, ?_⟩ fun stat => ?_)
      · intro hne hlt
        rw [if_pos (hstat hne hlt)]
      · exact sat_ite (fun hne => sat_pure fun h => absurd h hne) fun _ => sat_setConf (sat_pure fun _ => rfl)
  · intro info stat hstat
    exact sat_ite (fun _ => sat_pure fun h => absurd h hstat) (fun heq => absurd hstat heq)

theorem sat_pullPhases (Γ : Libcrc) (garbage : SendArgs) (rounds : Nat) {opening : Prog Status} {v : View} {s : Proc} :
    (pullPhases Γ garbage rounds opening s).Sat (monitor garbage s.conf) v (fun _ _ _ => True) := by
  unfold pullPhases
  refine sat_bind (sat_pullHandshake.mono fun v s stat hanswered => ?_)
  exact sat_ite (fun _ => trivial) fun heq => sat_answered (hanswered (Decidable.not_not.1 heq)) (fun _ _ _ => trivial) _

end Acceptance

namespace Receiver

section

variable {Γ : Libcrc} {v : View} {s : Proc}

/-- The addresses the receiver has stored are not valid. -/
def Unconnected (v : View) : Prop := v.stage = turn v.conf ∧ checkAddrs v.conf.addrs ≠ .success

/-- The data socket is opened, or the addresses are not valid, or a call fails. -/
theorem sat_startData (hbegun : Begun v s) (hlive : v.live = true) (hhold : hold v s) :
    (startData s).Sat (role Γ).monitor v (fun v s stat => Ends Begun False v s stat ∨ stat ≠ .success ∧ Unconnected v) := by
  obtain ⟨hstage, hphase⟩ := hbegun
  have hshares := shares_of_turn hstage hhold
  have haddrs : s.conf.addrs = v.conf.addrs := by
    rw [← hshares.core]
    rfl
  -- the data socket is not part of the view
  have hsock (live : Bool) (sock : Sockfd) : hold { v with live := live } { s with conf := { s.conf with dataSock := sock } } :=
    hold_turn hstage ⟨hshares.core, hshares.mapped, hshares.counted, hshares.segsize⟩
  have hat : (role Γ).At v s := at_of (by rw [hstage]; exact turn_ne_refused _) hlive hhold
  unfold startData
  refine sat_conf (sat_ite (fun hne => ?_) fun hvalid => sat_bind (sat_openUdpSocket hat ?_ ?_ ?_ ?_ ?_))
  · rw [haddrs] at hne ⊢
    exact sat_pure (.inr ⟨hne, hstage, hne⟩)
  · rintro (_ | _) hc <;> trivial
  · rintro (_ | _) r hc <;> first | rfl | exact hc.elim
  · intro sock
    exact sat_setConf (sat_pure (.inl (.inr ⟨hsock v.live sock, fun _ => ⟨hlive, hstage, hphase⟩, fun h => absurd rfl h⟩)))
  · intro stat _ hrefused
    obtain ⟨hlocal, hremote⟩ := Sender.checkAddrs_valid (Decidable.not_not.1 hvalid)
    rcases hrefused with hrefused | hrefused
    · rw [hrefused] at hlocal
      exact absurd hlocal Bool.false_ne_true
    · rw [hrefused] at hremote
      exact absurd hremote Bool.false_ne_true
  · intro stat sock hstat
    exact sat_setConf (sat_pure (.inl (.inr ⟨hsock false sock, fun h => absurd h hstat, fun _ => .inl (.inl rfl)⟩)))

/-- What follows when the data socket is open. -/
theorem sat_pullChunks (garbage : SendArgs) (rounds : Nat) (hbegun : Begun v s) (hlive : v.live = true) (hhold : hold v s) :
    ((do
      setSegsize
      let stat ← pullTransfer Γ rounds
      if stat ≠ .success then return stat
      pullVerification Γ garbage : Prog Status) s).Sat (role Γ).monitor v (Ends Reported False) := by
  have hshares := shares_of_turn hbegun.1 hhold
  have hsegsize : calcSegmentSize (if s.conf.chsize ≠ 0 then s.conf.chsize.toNat else s.conf.pchsize.toNat) = segsizeOf v.conf := by
    rw [← hshares.core]
    rfl
  unfold setSegsize
  refine sat_setConf (sat_check (sat_pullTransfer rounds hbegun.1 hlive
    ⟨hshares.core, hshares.mapped, hshares.counted, fun _ => hsegsize⟩ hsegsize) (fun _ _ _ h => .inl h) ?_ ?_)
  · intro v s _ hlive hhold hfinished
    exact sat_pullVerification garbage hfinished.1 hlive hhold hfinished.2
  · intro v s stat hstat hhold hstuck
    exact .inr ⟨hhold, fun h => absurd h hstat, fun _ => hstuck⟩

/-- The receiver keeps its role, and its data socket is refused for its addresses only. -/
theorem sat_pullPhases_startData (garbage : SendArgs) (rounds : Nat) (hstage : v.stage = .offer) (hlive : v.live = true) :
    (pullPhases Γ garbage rounds startData s).Sat (role Γ).monitor v
      (fun v s stat => Ends Reported False v s stat ∨ stat ≠ .success ∧ Unconnected v) := by
  unfold pullPhases
  refine sat_check (sat_pullHandshake garbage hstage hlive) (fun _ _ _ h => .inl (.inl h)) ?_ ?_
  · intro v s _ hlive hhold hbegun
    refine sat_bind ((sat_startData hbegun hlive hhold).mono fun v s stat h => ?_)
    rcases h with h | ⟨hne, haddrs⟩
    · by_cases hrefused : v.stage = .refused
      · exact sat_free (decide_eq_true hrefused) (fun _ _ => .inl (.inl hrefused)) _
      · obtain ⟨hhold, hsuccess, hstuck⟩ := h.resolve_left hrefused
        refine sat_ite (fun hne => ?_) (fun heq => ?_)
        · exact sat_pure (.inl (.inr ⟨hhold, fun h => absurd h hne, hstuck⟩))
        · obtain ⟨hlive, hbegun⟩ := hsuccess (Decidable.not_not.1 heq)
          exact (sat_pullChunks garbage rounds hbegun hlive hhold).mono fun _ _ _ h => .inl h
    · exact sat_ite (fun _ => sat_pure (.inr ⟨hne, haddrs⟩)) (fun heq => absurd hne heq)
  · intro v s stat hstat hhold hstuck
    exact .inl (.inr ⟨hhold, fun h => absurd h hstat, fun _ => hstuck⟩)

end

end Receiver

end RufShare
