import RufShare.Theorems.Handshake
import RufShare.Theorems.Offer

/-!
# What a refusal leaves behind

The guard of `pull_handshake` holds of every SEND header, so no offer is refused before the file is opened; and `create_file` opens
the file with `"w+"` before it checks anything else, so an offer that fails afterwards has already emptied or created it.
-/

namespace RufShare

open Resumption

/-- A call that has created a file, emptied it or changed its length. -/
def CreatesFile : Event → Prop
  | ⟨_, .fopen _ .wplus, r⟩ => r.isSome
  | ⟨_, .ftruncate _ _, r⟩ => r = true
  | _ => False

/-! ## Offers without chunks -/

/-- What an offer can change in the configuration. -/
def SameOffer (c c' : InitConfig) : Prop :=
  c'.chsize = c.chsize ∧ c'.pchsize = c.pchsize ∧ c'.chcount = c.chcount ∧ c'.seq = c.seq ∧ c'.filec = c.filec ∧ c'.addrs = c.addrs

/-- Offered the header `packet` with the infostring `infostr`, and with a control channel that does not fail, `pull_handshake` answers
with `ack = 0`, creates or truncates no file and leaves the configuration. -/
def RefusesOffer (garbage : SendArgs) (s : Proc) (packet infostr : Bytes) : Prop :=
  ∀ tr s' stat, Run (pullHandshake garbage s) tr s' stat → (∀ e ∈ tr, e.call.OfControl → Succeeded e) →
    Delivers (packet ++ infostr) tr → pushedAck tr = 0 ∧ (∀ e ∈ tr, ¬CreatesFile e) ∧ SameOffer s.conf s'.conf

namespace RefusalAux

open OfferAux

/-- `create_file` can open the file and then fail. -/
theorem may_createFile {path : Bytes} {size : Nat} {s : Proc} {Q : List Event → Proc → Status → Prop}
    (h : ∀ tr stat, (∀ e ∈ tr, ¬e.call.OfControl) → stat ≠ .success → Q (⟨s, .fopen path .wplus, some (5 : FileId)⟩ :: tr) s stat) :
    (createFile path size s).May Q := by
  unfold createFile
  refine may_syscall ⟨some (5 : FileId), ?_⟩
  by_cases hsize : size = 0
  · simp only [hsize, if_true]
    exact ⟨true, h _ _ (by simp [Call.OfControl]) nofun⟩
  · refine may_ite_neg hsize (may_syscall ⟨none, ?_⟩)
    exact ⟨true, h _ _ (by simp [Call.OfControl]) nofun⟩

theorem may_startFileStream {path : Bytes} {s : Proc} {Q : List Event → Proc → Status → Prop}
    (h : ∀ tr stat, (∀ e ∈ tr, ¬e.call.OfControl) → stat ≠ .success → Q (⟨s, .fopen path .wplus, some (5 : FileId)⟩ :: tr) s stat) :
    (startFileStream path .mwr s).May Q := by
  unfold startFileStream prepareFile
  refine may_bind (may_conf (may_createFile (fun tr stat hother hstat => ?_)))
  rw [if_pos hstat]
  show Q _ _ _
  rw [List.append_nil]
  exact h tr stat hother hstat

/-- Whatever it is offered, a handshake can open the file to write while its control channel does not fail. -/
theorem may_pullHandshake_creates (garbage : SendArgs) (s : Proc) {packet infostr : Bytes}
    (hp : packet.length = PacketType.size .send) (ht : byteAt packet 0 = PacketType.code .send)
    (hi : infostr.length = infostrSize) :
    (pullHandshake garbage s).May (fun tr _ _ => (∀ e ∈ tr, e.call.OfControl → Succeeded e) ∧
      Delivers (packet ++ infostr) tr ∧ ∃ e ∈ tr, CreatesFile e) := by
  obtain ⟨c, packet, rfl⟩ := List.exists_cons_of_ne_nil (List.ne_nil_of_length_pos (by rw [hp]; decide))
  unfold pullHandshake
  refine may_bind (may_bind (may_bind ?_))
  unfold pullSendHeader pullPacket pullType
  refine may_bind (may_bind (may_syscall ⟨.ready true, may_ite_neg nofun (may_bind ?_)⟩))
  refine may_pullTcpData (b := [c]) rfl (may_ite_neg (fun h => h rfl) ?_)
  refine may_ite_neg (fun h => h ht.symm) (may_ite_neg (fun h => h rfl) ?_)
  refine may_pullTcpData hp (may_ite_neg (fun h => h rfl) (may_bind (may_pullTcpData hi ?_)))
  refine may_ite_neg (fun h => h rfl) (may_ite_neg (fun h => h rfl) (may_ite_neg nofun (may_bind (may_bind ?_))))
  refine may_bind (may_startFileStream ?_)
  intro tr stat hother _
  refine may_bind (may_pushHeader (may_ite_neg (fun h => h rfl) ?_))
  have hquiet : ∀ e ∈ tr, ¬Reads e.call := fun e he hr => hother e he (HandshakeAux.ofControl_of_reads hr)
  have hsucc : ∀ e ∈ tr, e.call.OfControl → Succeeded e := fun e he hc => absurd hc (hother e he)
  simp only [List.cons_append, List.nil_append, List.append_nil, List.forall_mem_cons, List.forall_mem_append]
  refine ⟨⟨fun _ => rfl, fun _ => Nat.le_refl 1, fun _ => Nat.le_of_eq hp.symm, fun _ => Nat.le_of_eq hi.symm, nofun, hsucc,
    fun _ => rfl, fun _ => rfl, fun _ => Nat.le_refl _, List.forall_mem_nil _⟩, ?_, ?_⟩
  · have hne : infostr ≠ [] := List.ne_nil_of_length_pos (by rw [hi]; decide)
    refine .ready nofun (.peek (.recv rfl nofun (.recv (List.append_nil _).symm hne (delivers_of_not_reads ?_))))
    simp only [List.forall_mem_cons, List.forall_mem_append]
    exact ⟨fun h => h, hquiet, fun h => h, fun h => h, fun h => h, List.forall_mem_nil _⟩
  · exact ⟨_, .tail _ (.tail _ (.tail _ (.tail _ (.head _)))), rfl⟩

end RefusalAux

open RefusalAux in
/-- No offer without chunks is refused without effect, whatever its sizes and its infostring: `ISVALID_SEND_HEADER` holds of it. -/
theorem not_refusesOffer (garbage : SendArgs) (s : Proc) {packet infostr : Bytes}
    (hp : packet.length = PacketType.size .send) (ht : byteAt packet 0 = PacketType.code .send)
    (hi : infostr.length = infostrSize) (_hcount : (convertSendPacket (.ofBytes packet)).chunkCount = 0) :
    ¬RefusesOffer garbage s packet infostr := by
  intro h
  obtain ⟨tr, s', stat, hrun, hok, hd, e, he, hcreates⟩ := (may_pullHandshake_creates garbage s hp ht hi).run
  exact (h tr s' stat hrun hok hd).2.1 e he hcreates

namespace RefusalRun

/-- An offer of no chunks of one byte and a last chunk of three: in 64 bits its size is two. -/
def packet : Bytes := (packSendPacket 1 0 3 0).bytes

def infostr : Bytes := packIntoInfostring Sample.addrs

def receiver : Proc := { conf := Sample.receiver, phase := .setup }

/-- The run of a receiver whose calls all succeed. -/
@[irreducible] def offerRun : List Event × Option (Proc × Status) :=
  play (HandshakeRun.opening (some 5)) (packet ++ infostr) (pullHandshake Sample.blank receiver)

theorem run_offerRun {s : Proc} {stat : Status} (h : offerRun.2 = some (s, stat)) :
    Run (pullHandshake Sample.blank receiver) offerRun.1 s stat := by
  unfold offerRun at h ⊢
  exact run_play (HandshakeRun.opening (some 5)) h

theorem delivers_offerRun : Delivers (packet ++ infostr) offerRun.1 := by
  unfold offerRun
  generalize pullHandshake Sample.blank receiver = t
  exact HandshakeRun.delivers_opening (some 5) _ t

end RefusalRun

open RefusalRun in
theorem not_refusesOffer_sample : ((packet.length = PacketType.size .send ∧ byteAt packet 0 = PacketType.code .send) ∧
    infostr.length = infostrSize ∧ (convertSendPacket (.ofBytes packet)).chunkCount = 0) ∧
    ¬RefusesOffer Sample.blank receiver packet infostr :=
  have hlen : infostr.length = infostrSize := by decide +kernel
  ⟨⟨⟨by decide, by decide⟩, hlen, by decide⟩, not_refusesOffer Sample.blank receiver (by decide) (by decide) hlen (by decide)⟩

open RefusalRun in
/-- The receiver accepts that offer: it makes a file of two bytes and answers `ack = 1`. -/
theorem pullHandshake_accepts_no_chunks : ∃ tr s' stat, Run (pullHandshake Sample.blank receiver) tr s' stat ∧
    (∀ e ∈ tr, e.call.OfControl → Succeeded e) ∧ Delivers (packet ++ infostr) tr ∧
    (convertSendPacket (.ofBytes packet)).chunkCount = 0 ∧ s'.conf.filec.size = 2 ∧ pushedAck tr = 1 ∧
    ¬RefusesOffer Sample.blank receiver packet infostr := by
  have hrun : offerRun.2.map (fun out => out.1.conf.filec.size) = some 2 := by decide +kernel
  obtain ⟨⟨s', stat⟩, hout, hsize⟩ := Option.map_eq_some_iff.1 hrun
  have hok : ∀ e ∈ offerRun.1, Succeeded e := by decide +kernel
  have hack : pushedAck offerRun.1 = 1 := by decide +kernel
  refine ⟨_, s', stat, run_offerRun hout, fun e he _ => hok e he, delivers_offerRun, by decide, hsize, hack, ?_⟩
  intro h
  have hzero := (h _ s' stat (run_offerRun hout) (fun e he _ => hok e he) delivers_offerRun).1
  rw [hack] at hzero
  exact absurd hzero (by decide)

/-! ## Files that cannot be made -/

/-- A file after `ftruncate`: cut to the length asked for, or filled up with zeros. -/
def resized (content : Bytes) (size : Nat) : Bytes := content.take size ++ List.replicate (size - content.length) 0

/-- What a call leaves of the file at `path` (`none`: there is none). `start_file_stream` calls `ftruncate` only on the file it has
just opened there; a call that fails changes nothing. -/
def fileStep (path : Bytes) (content : Option Bytes) : Event → Option Bytes
  | ⟨_, .fopen p .wplus, r⟩ => if p = path ∧ r.isSome then some [] else content
  | ⟨_, .ftruncate _ size, r⟩ => if r = true then content.map (fun c => resized c size) else content
  | _ => content

/-- What the calls of a run leave of the file at `path`. -/
def fileAfter (path : Bytes) (content : Option Bytes) (tr : List Event) : Option Bytes := tr.foldl (fileStep path) content

/-- The length an `ftruncate` that succeeded has given the file. -/
def truncation : Event → Option Nat
  | ⟨_, .ftruncate _ size, r⟩ => if r = true then some size else none
  | _ => none

/-- The length the calls of a run have left the file with: that of the last `ftruncate`, or that of an emptied file. -/
def leftLength (tr : List Event) : Nat := (tr.filterMap truncation).getLastD 0

/-- The file at `path` is kept by a run that fails. -/
def KeepsFile (path : Bytes) (content : Option Bytes) (tr : List Event) (stat : Status) : Prop :=
  stat ≠ .success → fileAfter path content tr = content

/-- The condition under which it is: nothing was opened to write, or everything went well, or the file already was what is left. -/
def NothingLost (size : Nat) (content : Option Bytes) (tr : List Event) : Prop :=
  (∀ e ∈ tr, ¬CreatesFile e) ∨ (size ≠ 0 ∧ ∀ e ∈ tr, FileMade size e) ∨ content = some (List.replicate (leftLength tr) 0)

namespace RefusalAux

/-- What a run of `create_file` leaves. -/
def Left (path : Bytes) (tr : List Event) : Prop :=
  (∀ e ∈ tr, ¬CreatesFile e) ∧ (∀ content, fileAfter path content tr = content) ∨
    (∃ e ∈ tr, CreatesFile e) ∧ ∀ content, fileAfter path content tr = some (List.replicate (leftLength tr) 0)

theorem after_createFile (path : Bytes) (size : Nat) (s : Proc) :
    (createFile path size s).After (fun tr s' stat => s' = s ∧ (stat = .success ↔ size ≠ 0 ∧ ∀ e ∈ tr, FileMade size e) ∧
      Left path tr) := by
  -- after the file is opened something has happened to it, whatever follows
  have hopened (file : FileId) (tr : List Event) (h : ∀ content : Option Bytes,
      fileAfter path (some []) tr = some (List.replicate (leftLength tr) 0)) :
      Left path (⟨s, .fopen path .wplus, some file⟩ :: tr) := by
    refine .inr ⟨⟨_, List.mem_cons_self, rfl⟩, fun content => ?_⟩
    have hstep : fileStep path content ⟨s, .fopen path .wplus, some file⟩ = some [] := if_pos ⟨rfl, rfl⟩
    rw [fileAfter, List.foldl_cons, hstep]
    exact h content
  unfold createFile
  refine after_syscall fun opened => ?_
  cases opened with
  | none => exact ⟨rfl, by simp [FileMade], .inl ⟨by simp [CreatesFile], fun content => by simp [fileAfter, fileStep]⟩⟩
  | some file =>
    refine after_ite (fun hsize => after_syscall fun closed => ⟨rfl, by simp [hsize], hopened file _ fun _ => rfl⟩) (fun hsize => ?_)
    refine after_syscall fun info => ?_
    cases info with
    | none => exact after_syscall fun closed => ⟨rfl, by simp [FileMade], hopened file _ fun _ => rfl⟩
    | some avail =>
      refine after_ite (fun h => after_syscall fun closed => ⟨rfl, by simpa [FileMade] using fun _ => h, hopened file _ fun _ => rfl⟩) (fun h => ?_)
      refine after_syscall fun truncated => ?_
      cases truncated with
      | false =>
        exact after_ite (fun _ => after_syscall fun closed => ⟨rfl, by simp [FileMade], hopened file _ fun _ => rfl⟩) (by simp)
      | true =>
        refine after_ite (by simp) (fun _ => ⟨rfl, ?_, hopened file _ fun _ => ?_⟩)
        · have h' : size < avail.1 * avail.2 % 2 ^ 64 := Nat.lt_of_not_le h
          simpa [FileMade, hsize] using h'
        · simp [fileAfter, fileStep, resized, leftLength, truncation, List.filterMap_cons]

/-- A call that does not touch the file. -/
def Untouching (e : Event) : Prop := ¬CreatesFile e ∧ truncation e = none ∧ ∀ path content, fileStep path content e = content

theorem after_mfopen_untouching (path : Bytes) (s : Proc) :
    (mfopen path .rplus s).After (fun tr _ _ => ∀ e ∈ tr, Untouching e) := by
  unfold mfopen
  refine after_syscall fun opened => ?_
  cases opened with
  | none => exact after_pure (by simp [Untouching, CreatesFile, truncation, fileStep])
  | some file =>
    refine after_syscall fun info => ?_
    cases info with
    | none => exact after_syscall fun closed => after_pure (by simp [Untouching, CreatesFile, truncation, fileStep])
    | some stSize =>
      refine after_syscall fun mapped => ?_
      cases mapped with
      | none => exact after_syscall fun closed => after_pure (by simp [Untouching, CreatesFile, truncation, fileStep])
      | some buf => exact after_pure (by simp [Untouching, CreatesFile, truncation, fileStep])

theorem Left.append {path : Bytes} {tr tr' : List Event} (h : Left path tr) (h' : ∀ e ∈ tr', Untouching e) :
    Left path (tr ++ tr') := by
  have hstep (content : Option Bytes) : fileAfter path content (tr ++ tr') = fileAfter path content tr := by
    rw [fileAfter, List.foldl_append]
    generalize hc : List.foldl (fileStep path) content tr = c
    have : ∀ c, tr'.foldl (fileStep path) c = c := by
      clear h hc
      induction tr' with
      | nil => exact fun _ => rfl
      | cons e tr' ih =>
        rw [List.forall_mem_cons] at h'
        intro c
        rw [List.foldl_cons, h'.1.2.2, ih h'.2]
    rw [this, fileAfter, hc]
  have hleft : leftLength (tr ++ tr') = leftLength tr := by
    rw [leftLength, List.filterMap_append, List.filterMap_eq_nil_iff.2 (fun e he => (h' e he).2.1), List.append_nil]
    rfl
  rcases h with ⟨hno, hkeep⟩ | ⟨⟨e, he, hc⟩, hleave⟩
  · exact .inl ⟨List.forall_mem_append.2 ⟨hno, fun e he => (h' e he).1⟩, fun content => (hstep content).trans (hkeep content)⟩
  · refine .inr ⟨⟨e, List.mem_append_left _ he, hc⟩, fun content => ?_⟩
    rw [hstep, hleft]
    exact hleave content

theorem after_startFileStream (path : Bytes) (s : Proc) :
    (startFileStream path .mwr s).After (fun tr _ stat =>
      (stat = .success ↔ s.conf.filec.size ≠ 0 ∧ ∀ e ∈ tr, FileMade s.conf.filec.size e) ∧ Left path tr) := by
  unfold startFileStream
  refine after_bind_of (after_conf (after_createFile path s.conf.filec.size s)) ?_
  rintro tr s₁ stat ⟨rfl, hmade, hleft⟩
  refine after_ite (fun hne => after_pure ?_) (fun hstat => ?_)
  · rw [List.append_nil]
    exact ⟨hmade, hleft⟩
  have hall := hmade.1 (Decidable.not_not.1 hstat)
  refine after_bind_of ((HandshakeAux.after_mfopen path s₁.conf.filec.size s₁).and (after_mfopen_untouching path s₁)) ?_
  rintro tr' s₂ mfile ⟨⟨rfl, hopen, _⟩, huntouched⟩
  have hleft' : Left path (tr ++ (tr' ++ [])) := by
    rw [List.append_nil]
    exact hleft.append huntouched
  have hiff : mfile.isOpen = true ↔ s₂.conf.filec.size ≠ 0 ∧ ∀ e ∈ tr ++ (tr' ++ []), FileMade s₂.conf.filec.size e := by
    rw [List.append_nil, List.forall_mem_append, hopen]
    exact ⟨fun h => ⟨hall.1, hall.2, h⟩, fun h => h.2.2⟩
  refine after_ite (fun hclosed => ⟨?_, hleft'⟩) (fun hopened => ⟨?_, hleft'⟩)
  · rw [← hiff]
    exact ⟨nofun, fun h => by rw [h] at hclosed; nomatch hclosed⟩
  · rw [← hiff]
    exact ⟨fun _ => by simpa using hopened, fun _ => rfl⟩

end RefusalAux

open RefusalAux in
/-- Whatever file stood at the path and whatever the calls return, a failure of `start_file_stream` leaves that file alone exactly
when the file could not even be opened to write, or happened to be what the failure leaves: an empty file, or one of zeros if the
failure comes after `ftruncate`. -/
theorem startFileStream_keepsFile_iff (path : Bytes) (s : Proc) (content : Option Bytes) {tr : List Event} {s' : Proc}
    {stat : Status} (hrun : Run (startFileStream path .mwr s) tr s' stat) :
    KeepsFile path content tr stat ↔ NothingLost s.conf.filec.size content tr := by
  obtain ⟨hstat, hleft⟩ := Tree.after_iff.1 (after_startFileStream path s) _ _ _ hrun
  by_cases hs : stat = .success
  · exact ⟨fun _ => .inr (.inl (hstat.1 hs)), fun _ hne => absurd hs hne⟩
  rcases hleft with ⟨hno, hkeep⟩ | ⟨⟨e, he, hc⟩, hleave⟩
  · exact ⟨fun _ => .inl hno, fun _ _ => hkeep content⟩
  · constructor
    · intro h
      exact .inr (.inr ((h hs).symm.trans (hleave content)))
    · rintro (hno | hmade | hcontent) _
      · exact absurd hc (hno e he)
      · exact absurd (hstat.2 hmade) hs
      · rw [hleave content, hcontent]

namespace RefusalRun

/-- A receiver that is to make a file of one byte. -/
def maker : Proc := { conf := { Sample.receiver with filec := { Sample.receiver.filec with size := 1 } }, phase := .handshake }

/-- A file system without room. -/
def full (w : Bytes) (s : Proc) : (c : Call) → c.Answer × Bytes
  | .fstatvfs _ => (some (0, 4096), w)
  | c => Sample.env w s c

/-- The file cannot be opened. -/
def locked (w : Bytes) (s : Proc) : (c : Call) → c.Answer × Bytes
  | .fopen _ _ => (none, w)
  | c => Sample.env w s c

end RefusalRun

open RefusalRun in
theorem startFileStream_keepsFile_locked : ∃ tr s', Run (startFileStream [97] .mwr maker) tr s' .nocreat ∧
    KeepsFile [97] (some [1, 2]) tr .nocreat := by
  have hrun : (play locked [] (startFileStream [97] .mwr maker)).2 = some (maker, .nocreat) := by decide +kernel
  refine ⟨_, maker, run_play locked hrun, (startFileStream_keepsFile_iff [97] maker (some [1, 2]) (run_play locked hrun)).2 ?_⟩
  exact .inl (by simp [play, startFileStream, prepareFile, createFile, locked, CreatesFile])

open RefusalRun in
/-- A file of two bytes at the path, and no room for the new one: `NOAVAIL`, and the file is empty. -/
theorem startFileStream_empties_file : ∃ tr s', Run (startFileStream [97] .mwr maker) tr s' .noavail ∧
    fileAfter [97] (some [1, 2]) tr = some [] ∧ ¬KeepsFile [97] (some [1, 2]) tr .noavail := by
  have hrun : (play full [] (startFileStream [97] .mwr maker)).2 = some (maker, .noavail) := by decide +kernel
  have hleft : fileAfter [97] (some [1, 2]) (play full [] (startFileStream [97] .mwr maker)).1 = some [] := by decide +kernel
  refine ⟨_, maker, run_play full hrun, hleft, ?_⟩
  intro h
  exact absurd (hleft.symm.trans (h nofun)) (by decide)

end RufShare
