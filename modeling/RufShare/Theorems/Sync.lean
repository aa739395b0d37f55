import RufShare.Lemmas.Receiver
import RufShare.Theorems.Tiling
import RufShare.Theorems.Bounds

/-!
# What is synced

`mfsync` starts at the page of the cursor, and the loop over the segments has moved the cursor to the end of the chunk: the range
passed to `msync` covers the chunk exactly when no page begins inside it or at its end. When that is so for every chunk, nothing that
was written stays unsynced.
-/

namespace RufShare

open Resumption Receiver

/-- The page size the system gave. -/
def pageSize : Event → Option Nat
  | ⟨_, .sysconf, r⟩ => r
  | _ => none

/-- The range an `msync` that succeeded has synced. -/
def synced : Event → Option ChunkContext
  | ⟨_, .msync offset size, r⟩ => if r = true then some { startPos := offset, chunkSize := size } else none
  | _ => none

/-- The range `mfwrite` writes after a datagram. -/
def written : Event → Option ChunkContext
  | ⟨s, .recv ty fd size peek, r⟩ => access ⟨s, .recv ty fd size peek, r⟩
  | _ => none

/-- A byte of a range. -/
def ChunkContext.Has (range : ChunkContext) (x : Nat) : Prop := range.startPos ≤ x ∧ x < range.stop

/-- A byte stays unsynced by a call: it was written before or is now, and the call does not sync it. -/
def unsyncedStep (unsynced : Nat → Prop) (e : Event) (x : Nat) : Prop :=
  (unsynced x ∨ ∃ range, written e = some range ∧ range.Has x) ∧ ¬∃ range, synced e = some range ∧ range.Has x

/-- The bytes that a run has written and not synced since. -/
def Unsynced (tr : List Event) : Nat → Prop := tr.foldl unsyncedStep (fun _ => False)

/-- The last page that begins in a chunk, or at its end, begins with the chunk. -/
def InPage (page : Nat) (chunk : ChunkContext) : Prop :=
  chunk.chunkSize = 0 ∨ chunk.stop - chunk.stop % page ≤ chunk.startPos

namespace SyncAux

/-- The loop over the segments moves the cursor by what it takes, and syncs nothing. -/
theorem after_pullSegments (sock : Sockfd) (timeout : Int) (rounds : Nat) :
    ∀ rsize s, s.conf.filec.mfile.isOpen = true → s.conf.filec.mfile.pos + rsize ≤ s.conf.filec.mfile.size →
      s.conf.filec.mfile.size < 2 ^ 64 → (pullSegments sock timeout rounds rsize s).After (fun tr s' stat =>
        (tr.filterMap pageSize = [] ∧ tr.filterMap synced = []) ∧ (stat = .success →
          s'.conf.filec.mfile.pos = s.conf.filec.mfile.pos + rsize ∧ s'.conf.filec.mfile.size = s.conf.filec.mfile.size)) := by
  -- induction on the rounds: each takes one datagram
  induction rounds with
  | zero =>
    intro rsize s _ _ _
    cases rsize with
    | zero => exact after_pure ⟨⟨rfl, rfl⟩, fun _ => ⟨rfl, rfl⟩⟩
    | succ rsize => exact trivial
  | succ rounds ih =>
    intro rsize s hopen hfits hsize
    cases rsize with
    | zero => exact after_pure ⟨⟨rfl, rfl⟩, fun _ => ⟨rfl, rfl⟩⟩
    | succ rsize =>
      unfold pullSegments
      refine after_conf ?_
      have hle : (if s.conf.segsize ≤ rsize + 1 then s.conf.segsize else rsize + 1) ≤ rsize + 1 := by
        split <;> omega
      generalize (if s.conf.segsize ≤ rsize + 1 then s.conf.segsize else rsize + 1) = size at hle ⊢
      refine after_syscall fun polled => ?_
      cases polled with
      | error => exact after_pure ⟨⟨rfl, rfl⟩, by simp⟩
      | timeout => exact after_pure ⟨⟨rfl, rfl⟩, by simp⟩
      | ready hit =>
        refine after_ite (fun _ => after_pure ⟨⟨rfl, rfl⟩, by simp⟩) fun _ => ?_
        unfold pullUdpData
        refine Tree.after_bind.2 (after_syscall fun received => ?_)
        cases received with
        | none => exact after_ite (fun _ => after_pure ⟨⟨rfl, rfl⟩, by simp⟩) (fun hne => absurd (by simp) hne)
        | some b =>
          obtain ⟨b, hb⟩ := b
          refine after_ite (fun _ => after_pure ?_) (fun hlow => after_pure ?_)
          · exact after_ite (fun _ => after_pure ⟨⟨rfl, rfl⟩, by simp⟩) (fun hne => absurd (by simp) hne)
          · obtain rfl : b.length = size := Nat.le_antisymm hb (Nat.le_of_not_lt hlow)
            refine after_ite (fun hne => absurd rfl hne) fun _ => after_setConf ?_
            have hwrite := @mfwrite_of_fits s.conf.filec.mfile b hopen hsize (by omega)
            rw [hwrite]
            refine (ih (rsize + 1 - b.length) { s with conf := { s.conf with filec := { s.conf.filec with mfile :=
              { s.conf.filec.mfile with buf := Slice.overwrite s.conf.filec.mfile.buf s.conf.filec.mfile.pos b,
                                        pos := s.conf.filec.mfile.pos + b.length } } } } hopen ?_ hsize).mono ?_
            · change s.conf.filec.mfile.pos + b.length + (rsize + 1 - b.length) ≤ s.conf.filec.mfile.size
              omega
            rintro tr s' stat ⟨hquiet, hdone⟩
            refine ⟨hquiet, fun hstat => ⟨(hdone hstat).1.trans ?_, (hdone hstat).2⟩⟩
            change s.conf.filec.mfile.pos + b.length + (rsize + 1 - b.length) = s.conf.filec.mfile.pos + (rsize + 1)
            omega

/-- What `pull_chunk_data` has synced when it succeeds: once, from the page the chunk ends in. -/
def SyncedOnce (size : Nat) (chunk : ChunkContext) (tr : List Event) : Prop :=
  ∃ page offset, tr.filterMap pageSize = [page] ∧
    tr.filterMap synced = [{ startPos := offset, chunkSize := sizeSub size offset }] ∧
    (chunk.chunkSize ≠ 0 → offset = chunk.stop - chunk.stop % page)

/-- The part of `pull_chunk_data` after the seek. -/
theorem after_fill (sock : Sockfd) {chunk : ChunkContext} (timeout : Int) {s : Proc} (hopen : s.conf.filec.mfile.isOpen = true)
    (hsize : s.conf.filec.mfile.size < 2 ^ 64)
    (hpos : chunk.chunkSize = 0 ∨ s.conf.filec.mfile.pos = chunk.startPos ∧ chunk.stop ≤ s.conf.filec.mfile.size) :
    ((do
      let stat ← pullSegments sock timeout chunk.chunkSize chunk.chunkSize
      if stat ≠ .success then return stat
      let c ← conf
      let synced ← mfsync c.filec.mfile
      if !synced then return .emfsync
      return stat : Prog Status) s).After (fun tr _ stat => stat = .success → SyncedOnce s.conf.filec.mfile.size chunk tr) := by
  have hsegments : (pullSegments sock timeout chunk.chunkSize chunk.chunkSize s).After (fun tr s' stat =>
      (tr.filterMap pageSize = [] ∧ tr.filterMap synced = []) ∧ (stat = .success →
        s'.conf.filec.mfile.pos = s.conf.filec.mfile.pos + chunk.chunkSize ∧
        s'.conf.filec.mfile.size = s.conf.filec.mfile.size)) := by
    rcases hpos with hzero | ⟨hpos, hstop⟩
    · rw [hzero]
      exact after_pure ⟨⟨rfl, rfl⟩, fun _ => ⟨rfl, rfl⟩⟩
    · exact after_pullSegments sock timeout _ _ s hopen (by rw [hpos]; exact hstop) hsize
  refine after_bind_of hsegments ?_
  rintro tr s₁ stat ⟨⟨hpages, hsynced⟩, hdone⟩
  refine after_ite (fun hne => after_pure fun h => absurd h hne) fun hstat => after_conf ?_
  obtain ⟨hpos₁, hsize₁⟩ := hdone (Decidable.not_not.1 hstat)
  unfold mfsync
  refine Tree.after_bind.2 (after_syscall fun page => ?_)
  cases page with
  | none => exact after_ite (fun _ => after_pure nofun) (fun hne => absurd rfl hne)
  | some page =>
    refine after_last fun ok => ?_
    cases ok with
    | false => exact after_ite (fun _ => after_pure nofun) (fun hne => absurd rfl hne)
    | true =>
      refine after_ite nofun fun _ => after_pure fun _ =>
        ⟨page, s₁.conf.filec.mfile.pos - s₁.conf.filec.mfile.pos % page, ?_, ?_, ?_⟩
      · rw [List.filterMap_append, hpages]
        rfl
      · rw [List.filterMap_append, hsynced, ← hsize₁]
        rfl
      · intro hne
        rw [hpos₁, (hpos.resolve_left hne).1]
        rfl

/-- A call that neither asks for the page size nor syncs. -/
def Quiet (e : Event) : Prop := pageSize e = none ∧ synced e = none

theorem SyncedOnce.prepend {size : Nat} {chunk : ChunkContext} {pre tr : List Event} (h : SyncedOnce size chunk tr)
    (hpre : ∀ e ∈ pre, Quiet e) : SyncedOnce size chunk (pre ++ tr) := by
  unfold SyncedOnce at h ⊢
  rw [List.filterMap_append, List.filterMap_append, List.filterMap_eq_nil_iff.2 (fun e he => (hpre e he).1),
    List.filterMap_eq_nil_iff.2 (fun e he => (hpre e he).2)]
  exact h

/-- The option of the socket that `pull_chunk_data` sets for the first chunk. -/
theorem after_option {first : Prop} [Decidable first] {sock : Sockfd} {size : Nat} {x : Prog Status} {s : Proc}
    {Q : List Event → Proc → Status → Prop} (hfail : ∀ tr s', Q tr s' .failset)
    (hx : ∀ pre, (∀ e ∈ pre, Quiet e) → (x s).After (fun tr s' stat => Q (pre ++ tr) s' stat)) :
    (((if first then setSocketRcvlowsize sock size else pure .success : Prog Status) >>=
      fun stat => if stat ≠ .success then pure stat else x) s).After Q := by
  refine Tree.after_bind.2 (after_ite (fun _ => ?_) (fun _ => after_pure ?_))
  · unfold setSocketRcvlowsize
    refine after_syscall fun ok => after_ite (fun _ => after_pure ?_) (fun _ => after_pure ?_)
    · exact after_ite (fun _ => after_pure (hfail _ _)) (fun hne => absurd nofun hne)
    · exact after_ite (fun hne => absurd rfl hne) fun _ => hx _ (List.forall_mem_singleton.2 ⟨rfl, rfl⟩)
  · exact after_ite (fun hne => absurd rfl hne) fun _ => hx [] (List.forall_mem_nil _)

theorem after_pullChunkData (sock : Sockfd) (chunk : ChunkContext) (timeout : Int) (s : Proc)
    (hopen : s.conf.filec.mfile.isOpen = true) (hinside : chunk.stop ≤ s.conf.filec.mfile.size)
    (hsize : s.conf.filec.mfile.size < 2 ^ 64) :
    (pullChunkData sock chunk timeout s).After (fun tr _ stat =>
      stat = .success → SyncedOnce s.conf.filec.mfile.size chunk tr) := by
  unfold pullChunkData
  refine after_conf (after_syscall fun allocated => after_ite (fun _ => after_pure (by simp)) fun _ => ?_)
  -- the call made so far syncs nothing
  have hprepend {pre tr : List Event} (hpre : ∀ e ∈ pre, Quiet e) (h : SyncedOnce s.conf.filec.mfile.size chunk tr) :
      SyncedOnce s.conf.filec.mfile.size chunk (⟨s, .calloc s.conf.segsize 1, allocated⟩ :: (pre ++ tr)) := by
    rw [← List.cons_append]
    exact h.prepend (List.forall_mem_cons.2 ⟨⟨rfl, rfl⟩, hpre⟩)
  by_cases hseek : chunk.startPos < s.conf.filec.mfile.size
  · have hmfseek : mfseek s.conf.filec.mfile chunk.startPos =
        (chunk.startPos, { s.conf.filec.mfile with pos := chunk.startPos }) := by
      simp [mfseek, hopen, hseek]
    rw [hmfseek]
    refine after_setConf (after_ite (fun hne => absurd rfl hne) fun _ => after_option (by simp) fun pre hpre => ?_)
    refine Tree.After.mono (after_fill sock timeout hopen hsize (.inr ⟨rfl, hinside⟩)) ?_
    intro tr s' stat h hstat
    exact hprepend hpre (h hstat)
  · have hmfseek : mfseek s.conf.filec.mfile chunk.startPos = (0, s.conf.filec.mfile) := by
      simp [mfseek, hseek]
    have hzero : chunk.chunkSize = 0 := by
      unfold ChunkContext.stop at hinside
      omega
    rw [hmfseek]
    refine after_setConf (after_ite (fun _ => after_pure (by simp)) fun _ => after_option (by simp) fun pre hpre => ?_)
    refine Tree.After.mono (after_fill sock timeout hopen hsize (.inl hzero)) ?_
    intro tr s' stat h hstat
    exact hprepend hpre (h hstat)

/-- A range from `offset` to the end of the file covers the chunk when it does not begin after it. -/
theorem covers_iff {size offset : Nat} {chunk : ChunkContext} (hsize : size < 2 ^ 64) (hstop : chunk.stop ≤ size)
    (hoffset : offset ≤ chunk.stop) (hne : chunk.chunkSize ≠ 0) :
    (∀ x, chunk.Has x → ChunkContext.Has { startPos := offset, chunkSize := sizeSub size offset } x) ↔ offset ≤ chunk.startPos := by
  have hlen : sizeSub size offset = size - offset := sizeSub_of_le (by omega) hsize
  unfold ChunkContext.Has ChunkContext.stop at *
  rw [hlen]
  constructor
  · intro h
    exact (h chunk.startPos ⟨Nat.le_refl _, by omega⟩).1
  · intro h x hx
    dsimp only
    omega

theorem covered_iff {sock : Sockfd} {chunk : ChunkContext} {timeout : Int} {s : Proc} {page : Nat}
    (hopen : s.conf.filec.mfile.isOpen = true) (hinside : chunk.stop ≤ s.conf.filec.mfile.size)
    (hsize : s.conf.filec.mfile.size < 2 ^ 64) {tr : List Event} {s' : Proc}
    (hrun : Run (pullChunkData sock chunk timeout s) tr s' .success) (hpage : page ∈ tr.filterMap pageSize) :
    (∃ range ∈ tr.filterMap synced, ∀ x, chunk.Has x → range.Has x) ↔ InPage page chunk := by
  obtain ⟨page', offset, hpages, hsynced, hoffset⟩ :=
    Tree.after_iff.1 (after_pullChunkData sock chunk timeout s hopen hinside hsize) _ _ _ hrun rfl
  rw [hpages, List.mem_singleton] at hpage
  subst hpage
  simp only [hsynced, List.mem_singleton, exists_eq_left]
  by_cases hzero : chunk.chunkSize = 0
  · refine ⟨fun _ => .inl hzero, fun _ x hx => ?_⟩
    unfold ChunkContext.Has ChunkContext.stop at hx
    omega
  · have hle : chunk.stop - chunk.stop % page ≤ chunk.stop := Nat.sub_le _ _
    rw [hoffset hzero, covers_iff hsize hinside hle hzero]
    exact ⟨.inr, fun h => h.resolve_left hzero⟩

/-! ## A whole transfer -/

/-- The stages after the handshake. -/
def Transferring (v : View) : Prop :=
  v.stage ≠ .offer ∧ v.stage ≠ .offerInfo ∧ v.stage ≠ .making ∧ v.stage ≠ .refused

/-- The bytes that may be unsynced at a stage. -/
def Pending (v : View) (x : Nat) : Prop :=
  match v.stage with
  | .data _ _ got => (chunkContext v.conf).startPos ≤ x ∧ x < (chunkContext v.conf).startPos + got
  | .sync _ _ _ => (chunkContext v.conf).Has x
  | _ => False

/-- The view after a call that neither writes nor syncs: no byte has become clean that may be unsynced. -/
structure Keeps (page : Nat) (v v' : View) : Prop where
  stage : Transferring v'
  page : ∀ crc tries p, v'.stage = .sync crc tries p → p = page
  pending : ∀ x, Pending v x → Pending v' x

section Keeps

variable {Γ : Libcrc} {page : Nat} {v : View} {s : Proc}

theorem transferring_turn (c : InitConfig) : turn c ≠ .offer ∧ turn c ≠ .offerInfo ∧ turn c ≠ .making ∧ turn c ≠ .refused := by
  unfold turn
  split <;> exact ⟨nofun, nofun, nofun, nofun⟩

theorem turn_ne_sync (c : InitConfig) (crc : UInt32) (tries p : Nat) : turn c ≠ .sync crc tries p := by
  unfold turn
  split <;> exact nofun

/-- From a stage where nothing is pending, any later stage will do. -/
theorem keeps_of_clean {v' : View} (hclean : ∀ x, ¬Pending v x) (hstage : Transferring v')
    (hsync : ∀ crc tries p, v'.stage ≠ .sync crc tries p) : Keeps page v v' :=
  ⟨hstage, fun crc tries p h => absurd h (hsync crc tries p), fun x hx => absurd hx (hclean x)⟩

variable (hstage : Transferring v) (hpage : ∀ crc tries p, v.stage = .sync crc tries p → p = page)
include hstage hpage

theorem keeps_sent (buf : Bytes) : Keeps page v (sent Γ v s buf) := by
  cases hs : v.stage with
  | offer => exact absurd hs hstage.1
  | offerInfo => exact absurd hs hstage.2.1
  | making => exact absurd hs hstage.2.2.1
  | refused => exact absurd hs hstage.2.2.2
  | answer crc =>
    simp only [sent, hs]
    exact keeps_of_clean (by simp [Pending, hs]) (by simp [Transferring]) (by simp)
  | verdict crc tries =>
    simp only [sent, hs]
    split
    · exact keeps_of_clean (by simp [Pending, hs]) (transferring_turn _) (turn_ne_sync _)
    · exact keeps_of_clean (by simp [Pending, hs]) (by simp [Transferring]) (by simp)
  | report crc =>
    simp only [sent, hs]
    exact keeps_of_clean (by simp [Pending, hs]) (by simp [Transferring]) (by simp)
  | _ =>
    simp only [sent, hs]
    exact ⟨hstage, hpage, fun _ h => h⟩

theorem keeps_got (b : Bytes) : Keeps page v (got v b) := by
  cases hs : v.stage with
  | offer => exact absurd hs hstage.1
  | offerInfo => exact absurd hs hstage.2.1
  | flow =>
    simp only [got, hs]
    split <;> exact keeps_of_clean (by simp [Pending, hs]) (by simp [Transferring]) (by simp)
  | final =>
    simp only [got, hs]
    exact keeps_of_clean (by simp [Pending, hs]) (by simp [Transferring]) (by simp)
  | finalInfo crc =>
    simp only [got, hs]
    exact keeps_of_clean (by simp [Pending, hs]) (by simp [Transferring]) (by simp)
  | _ =>
    simp only [got, hs]
    exact ⟨hstage, hpage, fun _ h => h⟩

theorem keeps_after (c : Call) (r : c.Answer) (hc : ∀ offset size, c ≠ .msync offset size) (hguar : (role Γ).guar v s c)
    (hanswer : ∀ p, pageSize ⟨s, c, r⟩ = some p → p = page) : Keeps page v (after v c r) := by
  have hsame (length : Option Nat) (live : Bool) : Keeps page v { v with length := length, live := live } :=
    ⟨hstage, hpage, fun _ h => h⟩
  cases c with
  | msync offset size => exact absurd rfl (hc offset size)
  | sysconf =>
    cases r with
    | none => exact hsame v.length false
    | some p =>
      have hallows : allows v s .sysconf := hguar
      obtain ⟨crc, tries, hs, -⟩ := hallows
      simp only [after, hs]
      refine ⟨by simp [Transferring], ?_, ?_⟩
      · rintro _ _ _ ⟨rfl⟩
        exact hanswer p rfl
      · intro x hx
        simp only [Pending, hs] at hx
        exact hx
  | ftruncate file size =>
    simp only [after]
    split
    · exact hsame _ _
    · exact hsame _ _
  | fopen | fclose | fstatvfs | stat | fstat | mmap => exact hsame _ _
  | _ =>
    simp only [after]
    split
    · exact hsame _ _
    · exact hsame _ _

/-- A call that neither takes a datagram nor syncs. -/
theorem keeps_next (c : Call) (r : c.Answer) (hc : ∀ offset size, c ≠ .msync offset size)
    (hc' : ∀ fd size peek, c ≠ .recv .dgram fd size peek) (hguar : (role Γ).guar v s c)
    (hanswer : ∀ p, pageSize ⟨s, c, r⟩ = some p → p = page) : Keeps page v ((role Γ).next v s c r) := by
  have hsame (live : Bool) : Keeps page v { v with live := live } := ⟨hstage, hpage, fun _ h => h⟩
  refine (role Γ).next_cases (p := Keeps page v) c r (hsame v.live) (hsame false) ?_ ?_ ?_ ?_
    (keeps_after hstage hpage c r hc hguar hanswer)
  · intro _ buf _
    exact keeps_sent hstage hpage buf
  · intro _ _ _
    exact hsame v.live
  · intro _ _ b _ _
    exact keeps_got hstage hpage b
  · intro fd size peek b h _
    exact absurd h (hc' fd size peek)

end Keeps

theorem unsynced_append (tr : List Event) (e : Event) : Unsynced (tr ++ [e]) = unsyncedStep (Unsynced tr) e := by
  rw [Unsynced, List.foldl_append]
  rfl

/-- What is known of the view and the bytes unsynced, from one call to the next. -/
structure Tracks (page : Nat) (v : View) (tr : List Event) : Prop where
  stage : Transferring v
  page : ∀ crc tries p, v.stage = .sync crc tries p → p = page
  pending : ∀ x, Unsynced tr x → Pending v x

section Tracks

variable {Γ : Libcrc} {page : Nat} {v : View} {s : Proc} {tr : List Event}

/-- A call that neither writes nor syncs. -/
theorem Tracks.keep (h : Tracks page v tr) {v' : View} (hkeeps : Keeps page v v') {e : Event} (hwritten : written e = none)
    (hsynced : synced e = none) : Tracks page v' (tr ++ [e]) := by
  refine ⟨hkeeps.stage, hkeeps.page, ?_⟩
  intro x hx
  rw [unsynced_append, unsyncedStep, hwritten, hsynced] at hx
  rcases hx.1 with hx | ⟨_, hnone, _⟩
  · exact hkeeps.pending x (h.pending x hx)
  · nomatch hnone

/-- A datagram that came whole is written after what is already there. -/
theorem Tracks.write (h : Tracks page v tr) {fd : Sockfd} {size : Nat} {peek : Bool} {b : Bytes} {hb : b.length ≤ size}
    (hwhole : size ≤ b.length) (hguar : (role Γ).guar v s (.recv .dgram fd size peek)) :
    Tracks page (collected v b) (tr ++ [⟨s, .recv .dgram fd size peek, some ⟨b, hb⟩⟩]) := by
  have hcollects : collects v s size := hguar
  cases hs : v.stage with
  | data crc tries n =>
    simp only [collects, hs] at hcollects
    simp only [collected, hs]
    refine ⟨by simp [Transferring], by simp, ?_⟩
    intro x hx
    rw [unsynced_append] at hx
    change (chunkContext v.conf).startPos ≤ x ∧ x < (chunkContext v.conf).startPos + (n + b.length)
    rcases hx.1 with hx | ⟨range, hrange, hx⟩
    · have hpending := h.pending x hx
      simp only [Pending, hs] at hpending
      omega
    · have hr : { startPos := s.conf.filec.mfile.pos, chunkSize := s.conf.filec.mfile.span size 1 } = range := by
        simpa [written, access, hwhole] using hrange
      have hspan : s.conf.filec.mfile.span size 1 ≤ size := by
        simp only [MFile.span, Nat.mul_one]
        have := Nat.mod_le size (2 ^ 64)
        split <;> omega
      rw [← hr] at hx
      unfold ChunkContext.Has ChunkContext.stop at hx
      dsimp only at hx
      have hpos := hcollects.2.2.1
      omega
  | _ => simp only [collects, hs] at hcollects

/-- A sync that covers the chunk leaves nothing unsynced. -/
theorem Tracks.sync (h : Tracks page v tr) {offset size : Nat} (hhold : hold v s) (hguar : (role Γ).guar v s (.msync offset size))
    (hin : InPage page (chunkContext s.conf)) : Tracks page (after v (.msync offset size) true) (tr ++ [⟨s, .msync offset size, true⟩]) := by
  have hallows : allows v s (.msync offset size) := hguar
  obtain ⟨crc, tries, p, hs, hoffset, hsize⟩ := hallows
  obtain rfl := h.page crc tries p hs
  simp only [hold, hs] at hhold
  obtain ⟨hshares, -, hinside, -⟩ := hhold
  rw [hshares.chunk_eq] at hin
  simp only [after, hs]
  refine ⟨by simp [Transferring], by simp, ?_⟩
  intro x hx
  rw [unsynced_append] at hx
  rcases hx.1 with hbefore | ⟨_, hnone, _⟩
  · have hpending := h.pending x hbefore
    simp only [Pending, hs] at hpending
    refine absurd ⟨_, rfl, ?_⟩ hx.2
    have hstop : (chunkContext v.conf).stop ≤ v.conf.filec.size := hinside
    have hle : (chunkContext v.conf).stop - (chunkContext v.conf).stop % p ≤ (chunkContext v.conf).stop := Nat.sub_le _ _
    rw [hsize, hoffset]
    have hne : (chunkContext v.conf).chunkSize ≠ 0 := by
      unfold ChunkContext.Has ChunkContext.stop at hpending
      omega
    exact (covers_iff hshares.mapped.size_lt hstop hle hne).2 (hin.resolve_left hne) x hpending
  · cases hnone

/-- One call. -/
theorem Tracks.step (h : Tracks page v tr) {c : Call} {r : c.Answer} (hhold : hold v s) (hguar : (role Γ).guar v s c)
    (hanswer : ∀ p, pageSize ⟨s, c, r⟩ = some p → p = page)
    (hin : (synced ⟨s, c, r⟩).isSome → InPage page (chunkContext s.conf)) :
    Tracks page ((role Γ).next v s c r) (tr ++ [⟨s, c, r⟩]) := by
  have hfail : Keeps page v { v with live := false } := ⟨h.stage, h.page, fun _ hx => hx⟩
  cases c with
  | msync offset size =>
    cases r with
    | false => exact h.keep hfail rfl rfl
    | true => exact h.sync hhold hguar (hin rfl)
  | recv ty fd size peek =>
    cases ty with
    | stream =>
      exact h.keep (keeps_next h.stage h.page _ r (by simp) (by simp) hguar hanswer) rfl rfl
    | dgram =>
      cases r with
      | none => exact h.keep hfail rfl rfl
      | some b =>
        obtain ⟨b, hb⟩ := b
        by_cases hwhole : size ≤ b.length
        · have hnext : (role Γ).next v s (.recv .dgram fd size peek) (some ⟨b, hb⟩) = collected v b := if_pos hwhole
          rw [hnext]
          exact h.write hwhole hguar
        · have hnext : (role Γ).next v s (.recv .dgram fd size peek) (some ⟨b, hb⟩) = { v with live := false } := if_neg hwhole
          rw [hnext]
          exact h.keep hfail (by simp [written, access, hwhole]) rfl
  | _ => exact h.keep (keeps_next h.stage h.page _ r (by simp) (by simp) hguar hanswer) rfl rfl

/-- No file is opened after the handshake. -/
theorem relies_of_transferring (h : Transferring v) {c : Call} {r : c.Answer} (hguar : (role Γ).guar v s c) :
    (role Γ).relies v s c r := by
  cases c with
  | fstat file =>
    have hallows : allows v s (.fstat file) := hguar
    exact absurd hallows.1 h.2.2.1
  | _ => exact trivial

end Tracks

/-- After a transfer whose chunks each lie in a page, nothing is unsynced. -/
theorem synced_of_inPage {Γ : Libcrc} {rounds page : Nat} {s : Proc} (hmapped : Mapped s.conf) (hseq : s.conf.seq = 1)
    (hseg : s.conf.segsize = segsizeOf s.conf) {tr : List Event} {s' : Proc} (hrun : Run (pullTransfer Γ rounds s) tr s' .success)
    (hpage : ∀ e ∈ tr, ∀ p, pageSize e = some p → p = page)
    (hin : ∀ e ∈ tr, (synced e).isSome → InPage page (chunkContext e.state.conf)) : ∀ x, ¬Unsynced tr x := by
  let v : View := { stage := turn (core s.conf), live := true, length := none, conf := core s.conf }
  have hcounted : Counted (core s.conf) := by
    refine ⟨fun _ => hseq, fun h => ?_⟩
    have hone : (1 : UInt32) = 0 := hseq.symm.trans h
    exact absurd hone (by decide)
  have hsat : (pullTransfer Γ rounds s).Sat (role Γ).monitor v (Ends Finished False) :=
    sat_pullTransfer rounds rfl rfl ⟨rfl, mapped_core hmapped s.conf.seq, hcounted, fun _ => hseg⟩ hseg
  have htracks : Tracks page v [] :=
    ⟨transferring_turn _, fun crc tries p h => absurd h (turn_ne_sync _ crc tries p), fun x hx => hx.elim⟩
  obtain ⟨v', htracks', hends⟩ := hsat.history (I := Tracks page)
    (P := fun e => (∀ p, pageSize e = some p → p = page) ∧ ((synced e).isSome → InPage page (chunkContext e.state.conf)))
    (by
      rintro v tr s c r htracks hhold hguar ⟨hanswer, hin⟩
      have hbound : (role Γ).free v = false := decide_eq_false htracks.stage.2.2.2
      have hnext : (role Γ).monitor.next v s c r = (role Γ).next v s c r := if_neg (by rw [hbound]; decide)
      refine ⟨fun _ => relies_of_transferring htracks.stage (hguar hbound).2, ?_⟩
      rw [hnext]
      exact htracks.step (hhold hbound) (hguar hbound).2 hanswer hin)
    htracks hrun.path (fun e he => ⟨hpage e he, hin e he⟩)
  have hfinal : v'.stage = .final := by
    rcases hends with hrefused | ⟨-, hsuccess, -⟩
    · exact absurd hrefused htracks'.stage.2.2.2
    · exact (hsuccess rfl).2.1
  intro x hx
  have hpending := htracks'.pending x hx
  simp only [Pending, hfinal] at hpending

end SyncAux

open SyncAux in
/-- The range passed to `msync` covers the chunk just received exactly when the chunk is empty or no page begins inside it or at its
end; and after a transfer in which that is so for every chunk, every byte written has been synced since. -/
theorem pullChunkData_synced_iff (page : Nat) (s s' : Proc) (tr : List Event) :
    (∀ (sock : Sockfd) (chunk : ChunkContext) (timeout : Int),
      s.conf.filec.mfile.isOpen = true → chunk.stop ≤ s.conf.filec.mfile.size → s.conf.filec.mfile.size < 2 ^ 64 →
      Run (pullChunkData sock chunk timeout s) tr s' .success → page ∈ tr.filterMap pageSize →
      ((∃ range ∈ tr.filterMap synced, ∀ x, chunk.Has x → range.Has x) ↔ InPage page chunk)) ∧
    (∀ (Γ : Libcrc) (rounds : Nat), Mapped s.conf → s.conf.seq = 1 → s.conf.segsize = segsizeOf s.conf →
      Run (pullTransfer Γ rounds s) tr s' .success → (∀ e ∈ tr, ∀ p, pageSize e = some p → p = page) →
      (∀ e ∈ tr, (synced e).isSome → InPage page (chunkContext e.state.conf)) → ∀ x, ¬Unsynced tr x) := by
  constructor
  · intro sock chunk timeout hopen hinside hsize hrun hpage
    exact covered_iff hopen hinside hsize hrun hpage
  · intro Γ rounds hmapped hseq hseg hrun hpage hin
    exact synced_of_inPage hmapped hseq hseg hrun hpage hin

namespace SyncRun

open Sample

/-- A receiver with a file of `size` bytes, `chcount` chunks of two bytes and a last one of one byte. -/
def receiving (size : Nat) (chcount : UInt32) : Proc :=
  { conf := { receiver with
      chsize := 2, pchsize := 1, chcount := chcount, seq := 1, segsize := 2,
      filec := { mfile := { file := some 5, isOpen := true, size := size, pos := 0, buf := List.replicate size 0 },
                 size := size, name := [] } },
    phase := .flow }

/-- A transfer of one byte. -/
@[irreducible] def transfer : List Event × Option (Proc × Status) :=
  play env (packFlowPacket 1 1 0).bytes (pullTransfer zero 2 (receiving 1 1))

theorem run_transfer {s : Proc} (h : transfer.2 = some (s, .success)) :
    Run (pullTransfer zero 2 (receiving 1 1)) transfer.1 s .success := by
  unfold transfer at h ⊢
  exact run_play env h

/-- The chunk that ends at the end of the first page of 4096 bytes. -/
@[irreducible] def chunk : List Event × Option (Proc × Status) :=
  play env [] (pullChunkData 0 { startPos := 4094, chunkSize := 2 } 1 (receiving 5001 2501))

theorem run_chunk {s : Proc} (h : chunk.2 = some (s, .success)) :
    Run (pullChunkData 0 { startPos := 4094, chunkSize := 2 } 1 (receiving 5001 2501)) chunk.1 s .success := by
  unfold chunk at h ⊢
  exact run_play env h

end SyncRun

open SyncRun Sample in
/-- One byte in one page. -/
theorem pullChunkData_synced_one : ∃ tr s', Run (pullTransfer zero 2 (receiving 1 1)) tr s' .success ∧ ∀ x, ¬Unsynced tr x := by
  have hdone : transfer.2.map Prod.snd = some .success := by decide +kernel
  obtain ⟨⟨s', stat⟩, hout, rfl⟩ := Option.map_eq_some_iff.1 hdone
  have hpage : ∀ e ∈ transfer.1, pageSize e = none ∨ pageSize e = some 4096 := by decide +kernel
  have hchunk : ∀ e ∈ transfer.1, chunkContext e.state.conf = { startPos := 0, chunkSize := 1 } ∨ synced e = none := by decide +kernel
  refine ⟨_, s', run_transfer hout, (pullChunkData_synced_iff 4096 _ s' _).2 zero 2 ?_ rfl (by decide) (run_transfer hout) ?_ ?_⟩
  · exact ⟨rfl, rfl, rfl, by decide, by decide⟩
  · intro e he p h
    rcases hpage e he with hn | hn <;> rw [hn] at h
    · nomatch h
    · exact (Option.some.inj h).symm
  · intro e he h
    rcases hchunk e he with hc | hn
    · rw [hc]
      exact .inr (by decide)
    · rw [hn] at h
      nomatch h

open SyncRun in
/-- The chunk `[4094, 4096)` in pages of 4096 bytes: `msync` starts at 4096. -/
theorem pullChunkData_unsynced : ∃ tr s', Run (pullChunkData 0 { startPos := 4094, chunkSize := 2 } 1 (receiving 5001 2501)) tr s'
    .success ∧ tr.filterMap pageSize = [2 ^ 12] ∧ tr.filterMap synced = [{ startPos := 4096, chunkSize := 905 }] ∧
    ¬∃ range ∈ tr.filterMap synced, ∀ x, ChunkContext.Has { startPos := 4094, chunkSize := 2 } x → range.Has x := by
  have hdone : chunk.2.map Prod.snd = some .success := by decide +kernel
  obtain ⟨⟨s', stat⟩, hout, rfl⟩ := Option.map_eq_some_iff.1 hdone
  have hsynced : chunk.1.filterMap synced = [{ startPos := 4096, chunkSize := 905 }] := by decide +kernel
  refine ⟨_, s', run_chunk hout, by decide +kernel, hsynced, ?_⟩
  rintro ⟨range, hmem, hcovers⟩
  rw [hsynced, List.mem_singleton] at hmem
  have hfirst := hcovers 4094 ⟨Nat.le_refl _, by decide⟩
  rw [hmem] at hfirst
  exact absurd hfirst.1 (by decide)

end RufShare
