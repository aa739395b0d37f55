import Mathlib.Data.List.TakeWhile
import RufShare.Lemmas.Within

/-!
# What the sender's offer decides

The infostring of the SEND header names the file the receiver creates and the address its data socket is connected to.
`pull_handshake` takes both as they are scanned: the name is opened as a path, and the address replaces the one `accept`
recorded.
-/

namespace RufShare

open Resumption

/-- The infostring that a call of a handshake reads, if it does. -/
def handshakeInfostr : Event → Option Bytes
  | ⟨s, .recv .stream _ size false, r⟩ =>
    let r : Option { b : Bytes // b.length ≤ size } := r
    match r with
    | some b => if s.phase = .handshake ∧ size = infostrSize ∧ b.1.length = size then some b.1 else none
    | none => none
  | _ => none

/-- The infostring a run is offered: the first it reads in a handshake. -/
def offeredInfostr (tr : List Event) : Option Bytes := (tr.filterMap handshakeInfostr).head?

/-- The address a call connects to. -/
def connectedTo : Event → Option (Ipv4 × UInt16)
  | ⟨_, .connect _ ip port, _⟩ => some (ip, port)
  | _ => none

/-- The address a call accepts a connection from. -/
def acceptedFrom : Event → Option (Ipv4 × UInt16)
  | ⟨_, .accept _, r⟩ =>
    let r : Option Accepted := r
    r.map (fun conn => (conn.ip, conn.port))
  | _ => none

/-- A path that names an entry of the working directory. -/
def SingleComponent (path : Bytes) : Prop := 47 ∉ path ∧ path ≠ [46] ∧ path ≠ [46, 46]

/-- The name an infostring starts with: what stands before its first colon and its terminator, cut to 255 bytes. -/
def offeredName (infostr : Bytes) : Bytes := ((infostr.takeWhile (· ≠ 0)).take 255).takeWhile (· ≠ 58)

namespace OfferAux

/-- The scan of the name. -/
theorem filename_unpackFromInfostring (infostr : Bytes) (info : CntlAddrs) :
    (unpackFromInfostring infostr info).filename = if offeredName infostr = [] then info.filename else offeredName infostr := by
  unfold unpackFromInfostring scanSet offeredName
  by_cases h : (List.take 255 (infostr.takeWhile (· ≠ 0))).takeWhile (· ≠ 58) = []
  · simp only [h, if_true]
  · simp only [h, if_false]
    split
    · rfl
    · split
      · rfl
      · split <;> rfl

/-- A string that fits its array is copied whole. -/
theorem sstrncpy_of_lt {src : Bytes} {n : Nat} (h0 : ∀ b ∈ src, b ≠ 0) (hn : src.length < n) : sstrncpy src n = src := by
  have htake : src.take n = src := List.take_of_length_le (by omega)
  have hwhile : src.takeWhile (· ≠ 0) = src := List.takeWhile_eq_self_iff.2 (by simpa using h0)
  simp only [sstrncpy, htake, hwhile]
  rw [if_neg (by omega)]
  exact List.take_length

theorem mem_offeredName {infostr : Bytes} {b : UInt8} (h : b ∈ offeredName infostr) : b ≠ 0 := by
  have h₁ := (List.takeWhile_prefix _).mem h
  have h₂ := List.mem_of_mem_take h₁
  have h₃ := List.mem_takeWhile_imp h₂
  simpa using h₃

theorem length_offeredName (infostr : Bytes) : (offeredName infostr).length < maxFileNameSize := by
  have h₁ : (offeredName infostr).length ≤ _ := (List.takeWhile_prefix _).length_le
  have h₂ := List.length_take_le 255 (infostr.takeWhile (· ≠ 0))
  unfold maxFileNameSize
  omega

/-- The path a handshake opens. -/
theorem sstrncpy_filename {infostr : Bytes} (h : offeredName infostr ≠ []) (info : CntlAddrs) :
    sstrncpy (unpackFromInfostring infostr info).filename maxFileNameSize = offeredName infostr := by
  rw [filename_unpackFromInfostring, if_neg h]
  exact sstrncpy_of_lt (fun b hb => mem_offeredName hb) (length_offeredName infostr)

/-! ## Runs of the handshake -/

theorem after_pullTcpData (sock : Sockfd) (size : Nat) (s : Proc) (hs : s.phase = .handshake) :
    (pullTcpData sock size false s).After (fun tr s' got => s' = s ∧ tr.filterMap handshakeInfostr =
      if got.1 = .success ∧ size = infostrSize then [got.2] else []) := by
  unfold pullTcpData
  refine after_syscall fun received => ?_
  cases received with
  | none => exact ⟨rfl, by simp [handshakeInfostr]⟩
  | some b =>
    refine after_ite (fun hb => ?_) (fun hb => ?_)
    · have : b.1.length ≠ size := by omega
      exact ⟨rfl, by simp [handshakeInfostr, this]⟩
    · have : b.1.length = size := by
        have := b.2
        omega
      by_cases h : size = infostrSize
      · exact ⟨rfl, by simp [handshakeInfostr, hs, this, h]⟩
      · exact ⟨rfl, by simp [handshakeInfostr, h]⟩

/-- A call that only looks at a socket reads no infostring. -/
theorem handshakeInfostr_of_looks {e : Event} (h : e.call.Looks) : handshakeInfostr e = none := by
  unfold handshakeInfostr
  split
  · exact h.elim
  · rfl

/-- Pulling the SEND header of the handshake: when it succeeds it has read one infostring, and the header holds what was scanned
from it. -/
theorem after_pullSendHeader (sock : Sockfd) (args : SendArgs) (timeout : Int) (s : Proc) (hs : s.phase = .handshake) :
    (pullSendHeader sock args timeout s).After (fun tr s' got => s' = s ∧ (got.1 = .success →
      ∃ b, tr.filterMap handshakeInfostr = [b] ∧ got.2.info = unpackFromInfostring b args.info)) := by
  unfold pullSendHeader
  refine after_bind_of (P := fun tr s' _ => s' = s ∧ tr.filterMap handshakeInfostr = []) ?_ ?_
  · unfold pullPacket
    refine after_bind_of (after_pullType sock .send timeout s) ?_
    intro tr s₁ stat h
    obtain ⟨rfl, hlooks⟩ := h
    have htr := List.filterMap_eq_nil_iff.2 (fun e he => handshakeInfostr_of_looks (hlooks e he))
    refine after_ite (fun _ => ⟨rfl, by simpa using htr⟩) (fun _ => ?_)
    refine (after_pullTcpData sock _ s₁ hs).mono ?_
    intro tr' s₂ got h
    exact ⟨h.1, by rw [List.filterMap_append, htr, h.2]; simp [PacketType.size, infostrSize]⟩
  · intro tr s₁ got h
    obtain ⟨rfl, htr⟩ := h
    refine after_ite (fun hne => ⟨rfl, fun h => absurd h hne⟩) (fun _ => ?_)
    refine after_bind_of (after_pullTcpData sock infostrSize s₁ hs) ?_
    intro tr' s₂ got' h'
    obtain ⟨rfl, htr'⟩ := h'
    refine after_ite (fun hne => ⟨rfl, fun h => absurd h hne⟩) (fun hgot => ⟨rfl, fun _ => ⟨got'.2, ?_, rfl⟩⟩)
    simp only [List.append_nil, List.filterMap_append, htr, htr', Decidable.not_not.1 hgot, and_self, if_true,
      List.nil_append]

/-- `ISVALID_SEND_HEADER` refuses nothing. -/
theorem isValidSendHeader_eq (p : SendPacket) : isValidSendHeader p = true := by
  simp [isValidSendHeader]

/-- Whether a call is plain or opens `path` to write. -/
def PlainOr (path : Bytes) (c : Call) : Prop := c.Plain ∨ c = .fopen path .wplus

/-- What a handshake takes from the infostring it reads: the path it opens to write, and the address of the data channel. -/
theorem after_pullHandshake (garbage : SendArgs) (s : Proc) :
    (pullHandshake garbage s).After (fun tr s' stat =>
      (stat ≠ .success ∧ ∀ e ∈ tr, e.call.Plain) ∨
      ∃ b, offeredInfostr tr = some b ∧
        (∀ e ∈ tr, PlainOr (sstrncpy (unpackFromInfostring b garbage.info).filename maxFileNameSize) e.call) ∧
        s'.conf.addrs.remoteIp = sstrncpy (unpackFromInfostring b garbage.info).remoteIp maxIpv4Size ∧
        s'.conf.addrs.remotePort = (unpackFromInfostring b garbage.info).remotePort) := by
  have hinert : ∀ (s : Proc) (c : Call), True → c.Inert → c.Plain := fun _ _ _ h => h.steady.plain
  unfold pullHandshake
  refine after_enter (after_conf ?_)
  refine after_bind_of ((after_pullSendHeader _ garbage _ { s with phase := .handshake } rfl).and
    ((within_pullSendHeader hinert _ _ _).after trivial)) ?_
  intro tr s₁ got h
  obtain ⟨⟨rfl, hinfo⟩, -, htr⟩ := h
  refine after_ite (fun hne => .inl ⟨hne, by simpa using htr⟩) (fun hgot => ?_)
  obtain ⟨b, hb, hget⟩ := hinfo (Decidable.not_not.1 hgot)
  refine after_ite (fun hv => ?_) (fun _ => ?_)
  · rw [isValidSendHeader_eq] at hv
    nomatch hv
  -- the rest keeps the addresses the offer has set, and opens nothing but the path of the offer
  have hrest : Within
      (fun s => s.conf.addrs.remoteIp = sstrncpy got.2.info.remoteIp maxIpv4Size ∧
        s.conf.addrs.remotePort = got.2.info.remotePort)
      (fun _ c => PlainOr (sstrncpy got.2.info.filename maxFileNameSize) c)
      (do
        let made ← startFileStream (sstrncpy got.2.info.filename maxFileNameSize) .mwr
        let stat ← pushRecvHeader s.conf.connSock (packRecvPacket (if made = .success then 1 else 0) 0 0) s.conf.hstRecv
        if stat ≠ .success then return stat
        setConf (fun c => { c with seq := 1 })
        return stat) := by
    refine (within_startFileStream (fun _ _ _ h => .inl h.plain) (fun _ _ h => h) (fun _ _ => .inr rfl)).bind fun made => ?_
    refine (within_pushHeader (fun _ _ _ h => .inl h.steady.plain) _ _ _).bind fun stat => .ite (.pure _) ?_
    exact (Within.setConf (fun _ h => h)).bind fun _ => .pure _
  refine after_setConf (after_conf ((hrest.after ⟨rfl, rfl⟩).mono ?_))
  intro tr' s' stat h
  rw [hget] at h
  refine .inr ⟨b, ?_, ?_, h.1⟩
  · rw [offeredInfostr, List.filterMap_append, hb]
    rfl
  · rw [List.forall_mem_append]
    exact ⟨fun e he => .inl (htr e he), h.2⟩

/-! ## A handshake that comes to the file -/

/-- A handshake can read any infostring, and then opens the path it names. -/
theorem may_pullHandshake (garbage : SendArgs) (s : Proc) {infostr : Bytes} (hlen : infostr.length = infostrSize) :
    (pullHandshake garbage s).May (fun tr _ _ => tr.filterMap handshakeInfostr = [infostr] ∧
      ∃ e ∈ tr, e.call = .fopen (sstrncpy (unpackFromInfostring infostr garbage.info).filename maxFileNameSize) .wplus) := by
  unfold pullHandshake
  refine may_bind (may_bind (may_bind ?_))
  unfold pullSendHeader pullPacket pullType
  refine may_bind (may_bind (may_syscall ⟨.ready true, may_ite_neg nofun (may_bind ?_)⟩))
  refine may_pullTcpData (b := [PacketType.code .send]) rfl (may_ite_neg (fun h => h rfl) ?_)
  refine may_ite_neg (fun h => h rfl) (may_ite_neg (fun h => h rfl) ?_)
  refine may_pullTcpData (b := List.replicate (PacketType.size .send) 0) List.length_replicate ?_
  refine may_ite_neg (fun h => h rfl) (may_bind (may_pullTcpData hlen ?_))
  refine may_ite_neg (fun h => h rfl) (may_ite_neg (fun h => h rfl) (may_ite_neg nofun ?_))
  -- the file is not created and the answer not pushed
  refine ⟨none, false, ?_, ?_⟩
  · simp [List.filterMap_cons, handshakeInfostr, hlen, PacketType.size, infostrSize]
  · simp [storeOffer]

/-! ## Runs of the receiver -/

/-- A call that is not made in a handshake reads no infostring of it. -/
theorem handshakeInfostr_of_phase {e : Event} (h : e.state.phase ≠ .handshake) : handshakeInfostr e = none := by
  unfold handshakeInfostr
  split
  · rename_i s _ size r
    cases r with
    | none => rfl
    | some b => simp [show s.phase ≠ .handshake from h]
  · rfl

theorem connectedTo_of_plain {e : Event} (h : e.call.Plain) : connectedTo e = none := by
  unfold connectedTo
  split
  · exact h.elim
  · rfl

/-- `start_data` connects to the address it is handed. -/
theorem after_startData (s : Proc) :
    (startData s).After (fun tr _ _ => ∀ e ∈ tr, ∀ a, connectedTo e = some a →
      inetPton s.conf.addrs.remoteIp = some a.1 ∧ s.conf.addrs.remotePort = a.2) := by
  unfold startData
  refine after_conf (after_ite (fun _ => by simp [Tree.After]) (fun _ => ?_))
  refine after_bind_of (P := fun tr _ _ => ∀ e ∈ tr, ∀ a, connectedTo e = some a →
    inetPton s.conf.addrs.remoteIp = some a.1 ∧ s.conf.addrs.remotePort = a.2) ?_ ?_
  · unfold initUdpSocket
    cases inetPton s.conf.addrs.localIp with
    | none => simp [Tree.After]
    | some src =>
      cases inetPton s.conf.addrs.remoteIp with
      | none => simp [Tree.After]
      | some dst =>
        refine after_syscall fun opened => ?_
        cases opened with
        | none => simp [Tree.After, connectedTo]
        | some sock =>
          refine after_syscall fun reuse => ?_
          cases reuse with
          | false => simp [Tree.After, connectedTo]
          | true =>
            refine after_syscall fun bound => ?_
            cases bound with
            | false => simp [Tree.After, connectedTo]
            | true =>
              refine after_syscall fun connected => ?_
              cases connected <;> simp [Tree.After, connectedTo]
  · intro tr s₁ got h
    exact after_setConf (after_pure (by simpa using h))

/-- Where a run of the receiver has connected to, it was told so by the infostring it was offered. -/
def ConnectsAsOffered (garbage : SendArgs) (tr : List Event) : Prop :=
  ∀ e ∈ tr, ∀ a, connectedTo e = some a → ∃ b, offeredInfostr tr = some b ∧
    inetPton (sstrncpy (unpackFromInfostring b garbage.info).remoteIp maxIpv4Size) = some a.1 ∧
    (unpackFromInfostring b garbage.info).remotePort = a.2

theorem connectsAsOffered_of_plain {garbage : SendArgs} {tr : List Event} (h : ∀ e ∈ tr, e.call.Plain) :
    ConnectsAsOffered garbage tr := by
  intro e he a ha
  rw [connectedTo_of_plain (h e he)] at ha
  nomatch ha

theorem ConnectsAsOffered.append_plain {garbage : SendArgs} {tr tr' : List Event} (h : ConnectsAsOffered garbage tr)
    (h' : ∀ e ∈ tr', e.call.Plain) : ConnectsAsOffered garbage (tr ++ tr') := by
  intro e he a ha
  rcases List.mem_append.1 he with he | he
  · obtain ⟨b, hb, hip⟩ := h e he a ha
    refine ⟨b, ?_, hip⟩
    rw [offeredInfostr] at hb ⊢
    rw [List.filterMap_append, List.head?_append, hb]
    rfl
  · rw [connectedTo_of_plain (h' e he)] at ha
    nomatch ha

theorem ConnectsAsOffered.prepend {garbage : SendArgs} {tr tr' : List Event} (h : ConnectsAsOffered garbage tr')
    (hp : ∀ e ∈ tr, e.state.phase = .setup ∧ e.call.Plain) : ConnectsAsOffered garbage (tr ++ tr') := by
  have hnil : tr.filterMap handshakeInfostr = [] :=
    List.filterMap_eq_nil_iff.2 (fun e he => handshakeInfostr_of_phase (by rw [(hp e he).1]; decide))
  intro e he a ha
  rcases List.mem_append.1 he with he | he
  · rw [connectedTo_of_plain (hp e he).2] at ha
    nomatch ha
  · obtain ⟨b, hb, hip⟩ := h e he a ha
    refine ⟨b, ?_, hip⟩
    rw [offeredInfostr] at hb ⊢
    rw [List.filterMap_append, hnil, List.nil_append, hb]

theorem connectedTo_of_plainOr {path : Bytes} {e : Event} (h : PlainOr path e.call) : connectedTo e = none := by
  rcases h with h | h
  · exact connectedTo_of_plain h
  · unfold connectedTo
    split
    · nomatch h
    · rfl

theorem after_pullPhases (Γ : Libcrc) (garbage : SendArgs) (rounds : Nat) (s : Proc) :
    (pullPhases Γ garbage rounds startData s).After (fun tr _ _ => ConnectsAsOffered garbage tr) := by
  have hinert : ∀ (s : Proc) (c : Call), True → c.Inert → c.Plain := fun _ _ _ h => h.steady.plain
  have htrans := within_pullTransfer hinert (fun _ _ _ h => h) (fun _ _ h => h) (fun _ h => h) (fun _ h => h) Γ rounds
  have hverif := within_pullVerification hinert (fun _ h => h) Γ garbage
  unfold pullPhases setSegsize
  refine after_check (after_pullHandshake garbage s) ?_ ?_
  · intro tr s' stat h _
    rcases h with ⟨_, h⟩ | ⟨b, _, h, _⟩
    · exact connectsAsOffered_of_plain h
    · intro e he a ha
      rw [connectedTo_of_plainOr (h e he)] at ha
      nomatch ha
  intro tr₁ s₁ h₁
  rcases h₁ with ⟨hne, _⟩ | ⟨b, hb, hpl, hip, hport⟩
  · exact absurd rfl hne
  -- from here on the addresses are those of the offer
  have hdata (tr₂ : List Event) (h₂ : ∀ e ∈ tr₂, ∀ a, connectedTo e = some a →
      inetPton s₁.conf.addrs.remoteIp = some a.1 ∧ s₁.conf.addrs.remotePort = a.2) :
      ConnectsAsOffered garbage (tr₁ ++ tr₂) := by
    intro e he a ha
    rcases List.mem_append.1 he with he | he
    · rw [connectedTo_of_plainOr (hpl e he)] at ha
      nomatch ha
    · have := h₂ e he a ha
      rw [hip, hport] at this
      refine ⟨b, ?_, this⟩
      rw [offeredInfostr] at hb ⊢
      rw [List.filterMap_append, List.head?_append, hb]
      rfl
  refine after_check (after_startData s₁) (fun tr₂ _ _ h₂ _ => hdata tr₂ h₂) ?_
  intro tr₂ s₂ h₂
  refine after_setConf (after_check (htrans.after trivial) ?_ ?_)
  · intro tr₃ _ _ h₃ _
    rw [← List.append_assoc]
    exact (hdata tr₂ h₂).append_plain h₃.2
  · intro tr₃ s₃ h₃
    refine (hverif.after (s := s₃) trivial).mono ?_
    intro tr₄ _ _ h₄
    rw [← List.append_assoc, ← List.append_assoc]
    exact ((hdata tr₂ h₂).append_plain h₃.2).append_plain h₄.2

theorem after_startPuller (Γ : Libcrc) (garbage : SendArgs) (rounds : Nat) (c : InitConfig) :
    (startPuller Γ garbage rounds ⟨c, .setup⟩).After (fun tr _ _ => ConnectsAsOffered garbage tr) := by
  have hP : ∀ (s : Proc) (c : Call), s.phase = .setup → c.Plain → s.phase = .setup ∧ c.Plain := fun _ _ h h' => ⟨h, h'⟩
  have hI : ∀ (s : Proc) (f : InitConfig → InitConfig), s.phase = .setup → ({ s with conf := f s.conf } : Proc).phase = .setup :=
    fun _ _ h => h
  have hplain : ∀ (s : Proc) (c : Call), True → c.Plain → c.Plain := fun _ _ _ h => h
  have hoff {tr : List Event} (h : ∀ e ∈ tr, e.state.phase = .setup ∧ e.call.Plain) : ConnectsAsOffered garbage tr :=
    connectsAsOffered_of_plain (fun e he => (h e he).2)
  unfold startPuller
  refine after_check ((within_startCntl hP hI).after rfl) (fun _ _ _ h _ => hoff h.2) ?_
  intro tr₁ s₁ h₁
  refine after_check ((within_acceptCntl hP hI _).after h₁.1) (fun _ _ _ h _ => (hoff h.2).prepend h₁.2) ?_
  intro tr₂ s₂ h₂
  refine after_conf (after_check ((within_closeSocket hP _).after h₂.1) (fun _ _ _ h _ => ((hoff h.2).prepend h₂.2).prepend h₁.2) ?_)
  intro tr₃ s₃ h₃
  refine after_check (after_pullPhases Γ garbage rounds s₃)
    (fun _ _ _ h _ => ((h.prepend h₃.2).prepend h₂.2).prepend h₁.2) ?_
  intro tr₄ s₄ h₄
  refine ((within_pullClosing hplain (fun _ h => h)).after (s := s₄) trivial).mono ?_
  intro tr₅ _ _ h₅
  exact (((h₄.append_plain h₅.2).prepend h₃.2).prepend h₂.2).prepend h₁.2

end OfferAux

open OfferAux in
/-- The receiver's path stays inside the working directory, whatever the rest of the run and the memory it starts in, exactly when
the infostring offers a name that is not empty (nothing is scanned from an empty one, and the path is what the memory of the
header happened to hold), has no slash and is neither `"."` nor `".."`. -/
theorem pullHandshake_path_single_iff (infostr : Bytes) (hlen : infostr.length = infostrSize) :
    (∀ (garbage : SendArgs) (s : Proc) (tr : List Event) (s' : Proc) (stat : Status),
      Run (pullHandshake garbage s) tr s' stat → (∀ b ∈ tr.filterMap handshakeInfostr, b = infostr) →
        ∀ e ∈ tr, ∀ path, e.call = .fopen path .wplus → SingleComponent path) ↔
      offeredName infostr ≠ [] ∧ SingleComponent (offeredName infostr) := by
  constructor
  · intro h
    -- a header whose memory holds "/"
    let info : CntlAddrs := { filename := [47], name := [], localIp := [], remoteIp := [], localPort := 0, remotePort := 0 }
    let garbage : SendArgs := { packet := packSendPacket 0 0 0 0, info := info }
    obtain ⟨tr, s', stat, hrun, htr, e, he, hcall⟩ := (may_pullHandshake garbage default hlen).run
    have hsingle := h garbage default tr s' stat hrun (by simp [htr]) e he _ hcall
    by_cases hname : offeredName infostr = []
    · rw [filename_unpackFromInfostring, if_pos hname] at hsingle
      exact absurd hsingle.1 (by decide)
    · rw [sstrncpy_filename hname] at hsingle
      exact ⟨hname, hsingle⟩
  · intro h garbage s tr s' stat hrun htr e he path hcall
    rcases Tree.after_iff.1 (after_pullHandshake garbage s) tr s' stat hrun with ⟨_, hplain⟩ | ⟨b, hb, hplain, _⟩
    · have := hplain e he
      rw [hcall] at this
      exact this.elim
    · obtain rfl : b = infostr := htr b (List.mem_of_mem_head? hb)
      rcases hplain e he with hp | hp
      · rw [hcall] at hp
        exact hp.elim
      · rw [hcall, sstrncpy_filename h.1] at hp
        cases hp
        exact h.2

namespace OfferRun

open Sample

/-- The infostring of a sender that names its file `filename` and says it is at `ip`, port 9. -/
def infostr (filename ip : Bytes) : Bytes :=
  packIntoInfostring { addrs with filename := filename, localIp := ip, localPort := 9 }

/-- `"../x"`. -/
def upward : Bytes := [46, 46, 47, 120]

/-- `"2.2.2.2"`. -/
def elsewhere : Bytes := [50, 46, 50, 46, 50, 46, 50]

end OfferRun

open OfferRun in
theorem pullHandshake_path_single_plain : (infostr [97] Sample.ip).length = infostrSize ∧
    ∀ (garbage : SendArgs) (s : Proc) (tr : List Event) (s' : Proc) (stat : Status),
      Run (pullHandshake garbage s) tr s' stat → (∀ b ∈ tr.filterMap handshakeInfostr, b = infostr [97] Sample.ip) →
        ∀ e ∈ tr, ∀ path, e.call = .fopen path .wplus → SingleComponent path :=
  have hlen : (infostr [97] Sample.ip).length = infostrSize := by decide +kernel
  have hname : offeredName (infostr [97] Sample.ip) = [97] := by decide +kernel
  ⟨hlen, (pullHandshake_path_single_iff _ hlen).2 (by rw [hname]; exact ⟨by decide, by decide, by decide, by decide⟩)⟩

open OfferAux OfferRun in
/-- A sender that names its file `"../x"` makes the receiver open that path to write. -/
theorem pullHandshake_path_upward : ∃ tr s' stat, Run (pullHandshake Sample.blank ⟨Sample.receiver, .setup⟩) tr s' stat ∧
    tr.filterMap handshakeInfostr = [infostr upward Sample.ip] ∧
    ∃ e ∈ tr, e.call = .fopen upward .wplus ∧ ¬SingleComponent upward := by
  have hlen : (infostr upward Sample.ip).length = infostrSize := by decide +kernel
  have hname : offeredName (infostr upward Sample.ip) = upward := by decide +kernel
  obtain ⟨tr, s', stat, hrun, htr, e, he, hcall⟩ := (may_pullHandshake Sample.blank ⟨Sample.receiver, .setup⟩ hlen).run
  rw [sstrncpy_filename (by rw [hname]; decide), hname] at hcall
  exact ⟨tr, s', stat, hrun, htr, e, he, hcall, fun h => absurd h.1 (by decide)⟩

end RufShare
