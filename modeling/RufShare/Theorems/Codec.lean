import RufShare.Lemmas.Delivery
import RufShare.Theorems.Offer
import RufShare.Theorems.Stream

/-!
# The codecs

The infostring is printed with `"%.255s:%.31s@%.15s:%hu"` and scanned with `"%255[^:]:%31[^@]@%15[^:]:%hu"`: it is read back exactly
when the file name has no colon and the name no at-sign. Over it stand the headers of the control channel: a stream of headers is
read back header by header, and a pull of another type takes nothing off it.
-/

namespace RufShare

open Resumption

/-- The fields an infostring is made for: strings that fit their arrays, an address `inet_pton` accepts. -/
structure InfostrDomain (info : CntlAddrs) : Prop where
  filename_length : 1 ≤ info.filename.length ∧ info.filename.length ≤ 255
  filename_bytes : ∀ b ∈ info.filename, b ≠ 0
  name_length : 1 ≤ info.name.length ∧ info.name.length ≤ 31
  name_bytes : ∀ b ∈ info.name, b ≠ 0
  localIp : (inetPton info.localIp).isSome

/-- What `snprintf` prints before its terminator when nothing is cut. -/
def infostrText (info : CntlAddrs) : Bytes :=
  info.filename ++ 58 :: (info.name ++ 64 :: (info.localIp ++ 58 :: decimal info.localPort.toNat))

namespace CodecAux

/-! ## Numbers in decimal -/

theorem toNat_byte_of_isDigit {c : Char} (h : c.isDigit) : (UInt8.ofNat c.toNat).toNat = c.toNat := by
  have h' := Char.isDigit_iff_toNat.1 h
  rw [UInt8.toNat_ofNat', Nat.mod_eq_of_lt]
  have := h'.2
  simp at this
  omega

theorem isDigit_of_mem_decimal {n : Nat} {b : UInt8} (h : b ∈ decimal n) : isDigit b = true := by
  obtain ⟨c, hc, rfl⟩ := List.mem_map.1 h
  have hd := Nat.isDigit_of_mem_toDigits (by decide) (by decide) hc
  have hb := toNat_byte_of_isDigit hd
  have h' := Char.isDigit_iff_toNat.1 hd
  simp only [isDigit, Bool.and_eq_true, decide_eq_true_eq, UInt8.le_iff_toNat_le, hb]
  exact h'

theorem decimal_ne_nil (n : Nat) : decimal n ≠ [] := by
  simp [decimal]

theorem length_decimal_le {n : Nat} (h : n < 10 ^ 5) : (decimal n).length ≤ 5 := by
  rw [decimal, List.length_map]
  exact (Nat.length_toDigits_le_iff (by decide) (by decide)).2 h

/-- Reading a string of digits is what `Nat.ofDigitChars` does. -/
theorem foldl_digits {l : List Char} (h : ∀ c ∈ l, c.isDigit) (n : Nat) :
    (l.map (fun c => UInt8.ofNat c.toNat)).foldl (fun n b => 10 * n + (b.toNat - 48)) n = Nat.ofDigitChars 10 l n := by
  induction l generalizing n with
  | nil => rfl
  | cons c l ih =>
    rw [List.forall_mem_cons] at h
    rw [List.map_cons, List.foldl_cons, ih h.2, Nat.ofDigitChars_cons, toNat_byte_of_isDigit h.1]
    rfl

theorem digitsValue_decimal (n : Nat) : digitsValue (decimal n) = n := by
  rw [digitsValue, decimal, foldl_digits (fun c hc => Nat.isDigit_of_mem_toDigits (by decide) (by decide) hc)]
  exact Nat.ofDigitChars_ten_toDigits

/-- The port is read back as it was printed. -/
theorem scanHu_decimal (port : UInt16) : scanHu (decimal port.toNat) = some port := by
  have hdigits : ∀ b ∈ decimal port.toNat, isDigit b = true := fun b hb => isDigit_of_mem_decimal hb
  have hvalue := digitsValue_decimal port.toNat
  obtain ⟨d, l, hl⟩ := List.exists_cons_of_ne_nil (decimal_ne_nil port.toNat)
  rw [hl] at hdigits hvalue ⊢
  have hd : isDigit d = true := hdigits d List.mem_cons_self
  have hspace : isSpace d = false := by
    simp only [isDigit, Bool.and_eq_true, decide_eq_true_eq, UInt8.le_iff_toNat_le] at hd
    simp only [isSpace, Bool.or_eq_false_iff, decide_eq_false_iff_not, Bool.and_eq_false_iff, ← UInt8.toNat_inj,
      UInt8.le_iff_toNat_le]
    simp at hd ⊢
    omega
  have hsign : d ≠ 45 ∧ d ≠ 43 := by
    simp only [isDigit, Bool.and_eq_true, decide_eq_true_eq, UInt8.le_iff_toNat_le] at hd
    refine ⟨?_, ?_⟩
    · rintro rfl
      exact absurd hd.1 (by decide)
    · rintro rfl
      exact absurd hd.1 (by decide)
  have hwhile : (d :: l).takeWhile isDigit = d :: l := List.takeWhile_eq_self_iff.2 hdigits
  have hmin (m : Nat) (hm : 65535 ≤ m) : min port.toNat m = port.toNat := Nat.min_eq_left (by have := port.toNat_lt; omega)
  unfold scanHu
  simp only [List.dropWhile_cons, hspace]
  simp [hsign.1, hsign.2, hwhile, hvalue, hmin]

/-! ## Addresses -/

/-- Digits read from `n` on make at least `n` shifted by their number. -/
theorem le_foldl_digits (l : Bytes) (n : Nat) :
    n * 10 ^ l.length ≤ l.foldl (fun n b => 10 * n + (b.toNat - 48)) n := by
  induction l generalizing n with
  | nil => simp
  | cons b l ih =>
    rw [List.foldl_cons, List.length_cons, Nat.pow_succ']
    refine Nat.le_trans ?_ (ih _)
    rw [← Nat.mul_assoc]
    exact Nat.mul_le_mul_right _ (by omega)

/-- A number of a dotted quad has at most three digits. -/
theorem octet_isSome {l : Bytes} {x : UInt8} (h : octet l = some x) : l.length ≤ 3 ∧ ∀ b ∈ l, isDigit b = true := by
  unfold octet at h
  split at h
  case isFalse => nomatch h
  case isTrue hc =>
    simp only [Bool.and_eq_true, decide_eq_true_eq, Bool.or_eq_true, List.all_eq_true] at hc
    obtain ⟨⟨⟨hne, hall⟩, hlead⟩, hvalue⟩ := hc
    refine ⟨?_, hall⟩
    obtain ⟨d, l, rfl⟩ := List.exists_cons_of_ne_nil (by simpa using hne)
    rcases hlead with hone | hlead
    · omega
    · -- a leading digit that is not zero counts for as many powers of ten as digits follow it
      have hd := hall d List.mem_cons_self
      simp only [isDigit, Bool.and_eq_true, decide_eq_true_eq, UInt8.le_iff_toNat_le] at hd
      have hd0 : d.toNat ≠ 48 := by
        intro h48
        have : d = 48 := UInt8.toNat_inj.1 h48
        simp [this] at hlead
      have hge := le_foldl_digits l (10 * 0 + (d.toNat - 48))
      have hlt : 10 ^ l.length ≤ 255 := by
        refine Nat.le_trans (Nat.le_trans ?_ hge) hvalue
        have h1 : 1 ≤ 10 * 0 + (d.toNat - 48) := by
          have := hd.1
          simp at this
          omega
        exact Nat.le_trans (Nat.le_of_eq (Nat.one_mul _).symm) (Nat.mul_le_mul_right _ h1)
      have : l.length < 3 := by
        refine Decidable.byContradiction fun hge3 => ?_
        have := Nat.pow_le_pow_right (by decide : 0 < 10) (Nat.le_of_not_lt hge3)
        omega
      rw [List.length_cons]
      omega

/-- What `inet_pton` accepts is at most fifteen digits and dots. -/
theorem inetPton_isSome {ip : Bytes} (h : (inetPton ip).isSome) :
    ip ≠ [] ∧ ip.length ≤ 15 ∧ ∀ b ∈ ip, isDigit b = true ∨ b = 46 := by
  unfold inetPton at h
  split at h
  case h_2 => nomatch h
  case h_1 a b c d hsplit =>
    have hip : ip = a ++ 46 :: (b ++ 46 :: (c ++ 46 :: d)) := by
      have hjoin : [46].intercalate (ip.splitOn 46) = ip := List.intercalate_splitOn 46
      rw [hsplit] at hjoin
      simpa [List.intercalate] using hjoin.symm
    obtain ⟨quad, hq⟩ := Option.isSome_iff_exists.1 h
    simp only [Option.bind_eq_bind, Option.pure_def, Option.bind_eq_some_iff] at hq
    obtain ⟨_, ha, _, hb, _, hc, _, hd, _⟩ := hq
    obtain ⟨la, da⟩ := octet_isSome ha
    obtain ⟨lb, db⟩ := octet_isSome hb
    obtain ⟨lc, dc⟩ := octet_isSome hc
    obtain ⟨ld, dd⟩ := octet_isSome hd
    refine ⟨by simp [hip], ?_, ?_⟩
    · simp only [hip, List.length_append, List.length_cons]
      omega
    · intro x hx
      simp only [hip, List.mem_append, List.mem_cons] at hx
      rcases hx with hx | rfl | hx | rfl | hx | rfl | hx
      · exact .inl (da x hx)
      · exact .inr rfl
      · exact .inl (db x hx)
      · exact .inr rfl
      · exact .inl (dc x hx)
      · exact .inr rfl
      · exact .inl (dd x hx)

/-! ## The scan -/

/-- A field that is not empty, fits its width and does not hold its delimiter is scanned up to it. -/
theorem scanSet_append {width : Nat} {stop : UInt8} {token rest : Bytes} (hne : token ≠ []) (hlen : token.length ≤ width)
    (hstop : stop ∉ token) : scanSet width stop (token ++ stop :: rest) = some (token, stop :: rest) := by
  have hall : ∀ b ∈ token, (decide (b ≠ stop)) = true := by
    intro b hb
    simp only [ne_eq, decide_not, Bool.not_eq_true', decide_eq_false_iff_not]
    rintro rfl
    exact hstop hb
  have htoken : ((token ++ stop :: rest).take width).takeWhile (· ≠ stop) = token := by
    rw [List.take_append, List.take_of_length_le hlen, List.takeWhile_append_of_pos hall]
    cases width - token.length <;> simp
  simp only [scanSet, htoken, hne, if_false, List.drop_left]

/-- A scanned field does not hold its delimiter. -/
theorem not_mem_of_scanSet {width : Nat} {stop : UInt8} {input token rest : Bytes}
    (h : scanSet width stop input = some (token, rest)) : stop ∉ token := by
  simp only [scanSet] at h
  split at h
  · nomatch h
  · obtain ⟨rfl, _⟩ := Prod.mk.inj (Option.some.inj h)
    intro hmem
    have := List.mem_takeWhile_imp hmem
    simp at this

/-- The name that is scanned is the previous one or has no at-sign. -/
theorem name_unpackFromInfostring (infostr : Bytes) (info : CntlAddrs) :
    (unpackFromInfostring infostr info).name = info.name ∨ 64 ∉ (unpackFromInfostring infostr info).name := by
  simp only [unpackFromInfostring]
  split
  · exact .inl rfl
  · split
    · exact .inl rfl
    · rename_i hname
      obtain ⟨_, _, hscan⟩ := Option.bind_eq_some_iff.1 hname
      have hmem := not_mem_of_scanSet hscan
      split
      · exact .inr hmem
      · split <;> exact .inr hmem

theorem not_mem_offeredName (infostr : Bytes) : 58 ∉ offeredName infostr := by
  intro hmem
  have := List.mem_takeWhile_imp hmem
  simp at this

section

variable {info : CntlAddrs} (h : InfostrDomain info)
include h

theorem infostrText_bytes : ∀ b ∈ infostrText info, b ≠ 0 := by
  have hdigit : ∀ b : UInt8, isDigit b = true → b ≠ 0 := by
    rintro b hb rfl
    exact absurd hb (by decide)
  intro b hb
  simp only [infostrText, List.mem_append, List.mem_cons] at hb
  rcases hb with hb | rfl | hb | rfl | hb | rfl | hb
  · exact h.filename_bytes b hb
  · decide
  · exact h.name_bytes b hb
  · decide
  · rcases (inetPton_isSome h.localIp).2.2 b hb with hb | rfl
    · exact hdigit b hb
    · decide
  · decide
  · exact hdigit b (isDigit_of_mem_decimal hb)

theorem length_infostrText : (infostrText info).length + 1 ≤ infostrSize := by
  have hfile := h.filename_length.2
  have hname := h.name_length.2
  have hip := (inetPton_isSome h.localIp).2.1
  have hport := length_decimal_le (Nat.lt_trans info.localPort.toNat_lt (by decide : (2 : Nat) ^ 16 < 10 ^ 5))
  simp only [infostrText, List.length_append, List.length_cons, infostrSize]
  omega

/-- Nothing is cut: neither a field to its width nor the text to the array. -/
theorem packIntoInfostring_eq :
    packIntoInfostring info = infostrText info ++ List.replicate (infostrSize - (infostrText info).length) 0 := by
  have hlen := length_infostrText h
  have htext : info.filename.take 255 ++ [58] ++ info.name.take 31 ++ [64] ++ info.localIp.take 15 ++ [58] ++
      decimal info.localPort.toNat = infostrText info := by
    rw [List.take_of_length_le h.filename_length.2, List.take_of_length_le h.name_length.2,
      List.take_of_length_le (inetPton_isSome h.localIp).2.1]
    simp [infostrText]
  simp only [packIntoInfostring, htext]
  rw [List.take_of_length_le (by omega)]

/-- The text stands before the terminator. -/
theorem takeWhile_packIntoInfostring : (packIntoInfostring info).takeWhile (· ≠ 0) = infostrText info := by
  have hlen := length_infostrText h
  have hall : ∀ b ∈ infostrText info, (decide (b ≠ 0)) = true := by simpa using infostrText_bytes h
  rw [packIntoInfostring_eq h, List.takeWhile_append_of_pos hall]
  cases hn : infostrSize - (infostrText info).length with
  | zero => simp
  | succ n => simp [List.replicate_succ]

/-- Without a delimiter inside a field every conversion matches. -/
theorem unpack_pack (hfile : 58 ∉ info.filename) (hname : 64 ∉ info.name) (previous : CntlAddrs) :
    unpackFromInfostring (packIntoInfostring info) previous =
      { previous with filename := info.filename, name := info.name, remoteIp := info.localIp, remotePort := info.localPort } := by
  obtain ⟨hne, hlen, hbytes⟩ := inetPton_isSome h.localIp
  have hip : 58 ∉ info.localIp := by
    intro hmem
    rcases hbytes 58 hmem with hb | hb
    · exact absurd hb (by decide)
    · exact absurd hb (by decide)
  have hfile' : info.filename ≠ [] := List.ne_nil_of_length_pos h.filename_length.1
  have hname' : info.name ≠ [] := List.ne_nil_of_length_pos h.name_length.1
  unfold unpackFromInfostring
  rw [takeWhile_packIntoInfostring h, infostrText]
  simp only [scanSet_append hfile' h.filename_length.2 hfile, scanLit, if_true, Option.bind_some,
    scanSet_append hname' h.name_length.2 hname, scanSet_append hne hlen hip, scanHu_decimal]

end

end CodecAux

open CodecAux OfferAux in
/-- In its domain the infostring is never cut, and it is read back whatever the destination held exactly when the file name has no
colon and the name no at-sign. -/
theorem infostring_codec_iff (info : CntlAddrs) (h : InfostrDomain info) :
    (packIntoInfostring info = infostrText info ++ List.replicate (infostrSize - (infostrText info).length) 0 ∧
      (infostrText info).length + 1 ≤ infostrSize) ∧
    ((∀ previous : CntlAddrs,
      (unpackFromInfostring (packIntoInfostring info) previous).filename = info.filename ∧
      (unpackFromInfostring (packIntoInfostring info) previous).name = info.name ∧
      (unpackFromInfostring (packIntoInfostring info) previous).remoteIp = info.localIp ∧
      (unpackFromInfostring (packIntoInfostring info) previous).remotePort = info.localPort) ↔
      58 ∉ info.filename ∧ 64 ∉ info.name) := by
  refine ⟨⟨packIntoInfostring_eq h, length_infostrText h⟩, ?_, ?_⟩
  · -- a destination with empty fields shows both delimiters
    intro hall
    obtain ⟨hfile, hname, _, _⟩ := hall { info with filename := [], name := [] }
    rw [← hfile, ← hname]
    refine ⟨?_, ?_⟩
    · rw [filename_unpackFromInfostring]
      split
      · exact List.not_mem_nil
      · exact not_mem_offeredName _
    · rcases name_unpackFromInfostring (packIntoInfostring info) { info with filename := [], name := [] } with hn | hn
      · rw [hn]
        exact List.not_mem_nil
      · exact hn
  · rintro ⟨hfile, hname⟩ previous
    rw [unpack_pack h hfile hname previous]
    exact ⟨rfl, rfl, rfl, rfl⟩

namespace CodecRun

theorem domain_addrs : InfostrDomain Sample.addrs where
  filename_length := by decide
  filename_bytes := by decide +kernel
  name_length := by decide
  name_bytes := by decide +kernel
  localIp := by decide +kernel

end CodecRun

/-- `"a:b@1.1.1.1:1"`. -/
theorem infostring_codec_sample : InfostrDomain Sample.addrs ∧ ∀ previous : CntlAddrs,
    (unpackFromInfostring (packIntoInfostring Sample.addrs) previous).filename = Sample.addrs.filename ∧
    (unpackFromInfostring (packIntoInfostring Sample.addrs) previous).name = Sample.addrs.name ∧
    (unpackFromInfostring (packIntoInfostring Sample.addrs) previous).remoteIp = Sample.addrs.localIp ∧
    (unpackFromInfostring (packIntoInfostring Sample.addrs) previous).remotePort = Sample.addrs.localPort :=
  ⟨CodecRun.domain_addrs, (infostring_codec_iff Sample.addrs CodecRun.domain_addrs).2.2 (by decide)⟩

/-! ## Streams of headers -/

/-- The field values of a header. -/
inductive Fields where
  | cast (crc : UInt16) (info : CntlAddrs)
  | flow (chunkSize : UInt16) (sequence crc : UInt32)
  | send (chunkSize : UInt16) (chunkCount : UInt32) (partialChunkSize crc : UInt16) (info : CntlAddrs)
  | recv (ack : UInt8) (crc : UInt16) (sequence : UInt32)

/-- Pack the fields and push the header. -/
def pushFields (sock : Sockfd) (timeout : Int) : Fields → Prog Status
  | .cast crc info => pushCastHeader sock { packet := packCastPacket crc, info := info } timeout
  | .flow chunkSize sequence crc => pushFlowHeader sock (packFlowPacket chunkSize sequence crc) timeout
  | .send chunkSize chunkCount partialChunkSize crc info =>
    pushSendHeader sock { packet := packSendPacket chunkSize chunkCount partialChunkSize crc, info := info } timeout
  | .recv ack crc sequence => pushRecvHeader sock (packRecvPacket ack crc sequence) timeout

/-- Push one header after the other. -/
def pushAll (sock : Sockfd) (timeout : Int) : List Fields → Prog (List Status)
  | [] => return []
  | fields :: rest => do
    let stat ← pushFields sock timeout fields
    let stats ← pushAll sock timeout rest
    return stat :: stats

/-- The bytes of a header on the control channel. -/
def Fields.bytes : Fields → Bytes
  | .cast crc info => (packCastPacket crc).bytes ++ packIntoInfostring info
  | .flow chunkSize sequence crc => (packFlowPacket chunkSize sequence crc).bytes
  | .send chunkSize chunkCount partialChunkSize crc info =>
    (packSendPacket chunkSize chunkCount partialChunkSize crc).bytes ++ packIntoInfostring info
  | .recv ack crc sequence => (packRecvPacket ack crc sequence).bytes

def Fields.type : Fields → PacketType
  | .cast _ _ => .cast
  | .flow _ _ _ => .flow
  | .send _ _ _ _ _ => .send
  | .recv _ _ _ => .recv

def Header.type : Header → PacketType
  | .cast _ => .cast
  | .flow _ => .flow
  | .send _ => .send
  | .recv _ => .recv

/-- How many bytes each header takes. -/
def headerSize : PacketType → Nat
  | .cast => 324
  | .flow => 12
  | .send => 332
  | .recv => 8

/-- The infostring of the fields, if they have one, is in the domain in which it is read back. -/
def Fields.Encodable : Fields → Prop
  | .cast _ info | .send _ _ _ _ info => InfostrDomain info ∧ 58 ∉ info.filename ∧ 64 ∉ info.name
  | _ => True

/-- The addresses after a scan of those of a sender. -/
def scanned (info previous : CntlAddrs) : CntlAddrs :=
  { previous with filename := info.filename, name := info.name, remoteIp := info.localIp, remotePort := info.localPort }

/-- The arguments of a pull, after it has read these fields into them. -/
def Fields.into : Fields → Header → Header
  | .cast crc info, .cast args =>
    .cast { packet := { type := PacketType.code .cast, pad0 := 0, crc := crc }, info := scanned info args.info }
  | .flow chunkSize sequence crc, .flow _ =>
    .flow { type := PacketType.code .flow, pad0 := 0, chunkSize := chunkSize, sequence := sequence, crc := crc }
  | .send chunkSize chunkCount partialChunkSize crc info, .send args =>
    .send { packet := { type := PacketType.code .send, pad0 := 0, chunkSize := chunkSize, chunkCount := chunkCount,
                        partialChunkSize := partialChunkSize, crc := crc },
            info := scanned info args.info }
  | .recv ack crc sequence, .recv _ => .recv { type := PacketType.code .recv, ack := ack, crc := crc, sequence := sequence }
  | _, header => header

/-- What is pulled at one position of the stream: any number of headers of other types, and then the right one. -/
structure Turn where
  fields : Fields
  wrong : List Header
  right : Header
  wrong_type : ∀ header ∈ wrong, header.type ≠ fields.type
  right_type : right.type = fields.type
  encodable : fields.Encodable

/-- The pulls of a turn. -/
def Turn.pulls (t : Turn) : List Header := t.wrong ++ [t.right]

/-- What the pulls of a turn are to return. -/
def Turn.results (t : Turn) : List (Status × Header) :=
  t.wrong.map (fun header => (.badtype, header)) ++ [(.success, t.fields.into t.right)]

namespace CodecAux

/-- A push whose calls succeed succeeds, and has sent the header. -/
theorem after_pushFields (sock : Sockfd) (timeout : Int) (fields : Fields) (s : Proc) :
    (pushFields sock timeout fields s).After (fun tr s' stat => s' = s ∧
      ((∀ e ∈ tr, Succeeded e) → stat = .success ∧ sentStream tr = fields.bytes)) := by
  have hpush (buf : Bytes) : (pushHeader sock buf timeout s).After (fun tr s' stat => s' = s ∧
      ((∀ e ∈ tr, Succeeded e) → stat = .success ∧ sentStream tr = buf)) := by
    refine (after_pushHeader sock buf timeout s).mono ?_
    rintro tr s' stat ⟨rfl, _, hok, hsent⟩
    refine ⟨rfl, fun hall => ⟨hok.2 hall, ?_⟩⟩
    obtain ⟨n, rfl⟩ := hsent (hok.2 hall)
    exact List.append_nil _
  cases fields with
  | cast crc info => exact hpush _
  | flow chunkSize sequence crc => exact hpush _
  | send chunkSize chunkCount partialChunkSize crc info => exact hpush _
  | recv ack crc sequence => exact hpush _

theorem after_pushAll (sock : Sockfd) (timeout : Int) (all : List Fields) (s : Proc) :
    (pushAll sock timeout all s).After (fun tr s' stats => s' = s ∧ ((∀ e ∈ tr, Succeeded e) →
      stats = all.map (fun _ => .success) ∧ sentStream tr = (all.map Fields.bytes).flatten)) := by
  induction all with
  | nil => exact after_pure ⟨rfl, fun _ => ⟨rfl, rfl⟩⟩
  | cons fields all ih =>
    refine after_bind_of (after_pushFields sock timeout fields s) ?_
    rintro tr s₁ stat ⟨rfl, h⟩
    refine after_bind_of ih ?_
    rintro tr' s₂ stats ⟨rfl, h'⟩
    refine after_pure ⟨rfl, fun hall => ?_⟩
    rw [List.append_nil, List.forall_mem_append] at hall
    obtain ⟨rfl, hb⟩ := h hall.1
    obtain ⟨rfl, hbs⟩ := h' hall.2
    refine ⟨rfl, ?_⟩
    rw [List.append_nil, sentStream_append, hb, hbs]
    rfl

theorem length_bytes (fields : Fields) : fields.bytes.length = headerSize fields.type := by
  cases fields <;> simp [Fields.bytes, Fields.type, headerSize, PacketType.size, length_packIntoInfostring, infostrSize]

theorem byteAt_bytes (fields : Fields) : byteAt fields.bytes 0 = fields.type.code := by
  cases fields <;> rfl

/-- A pull of the wrong type looks at the first byte and stops. -/
theorem readsWhole_wrongType (sock : Sockfd) (timeout : Int) (header : Header) (s : Proc) (fields : Fields) (rest : Bytes)
    (hne : header.type ≠ fields.type) :
    ReadsWhole (pullHeader sock timeout header) s (fields.bytes ++ rest) (.badtype, header) (fields.bytes ++ rest) := by
  have hcode (type : PacketType) (h : type ≠ fields.type) : type.code ≠ byteAt fields.bytes 0 := by
    intro hc
    rw [byteAt_bytes] at hc
    exact h (PacketType.code_inj hc)
  obtain ⟨c, b, hb⟩ : ∃ c b, fields.bytes = c :: b := by
    cases fields <;> exact ⟨_, _, rfl⟩
  have hpacket (type : PacketType) (h : type ≠ fields.type) :
      ReadsWhole (pullPacket sock type timeout) s (fields.bytes ++ rest) (.badtype, []) (fields.bytes ++ rest) := by
    have hc := hcode type h
    rw [hb] at hc ⊢
    unfold pullPacket
    refine .bind (a := .badtype) (m := c :: b ++ rest) ?_ ⟨rfl, rfl⟩
    unfold pullType
    refine .bind (a := PollResult.ready true) (m := c :: b ++ rest) ⟨rfl, rfl⟩ (.ite_neg nofun ?_)
    refine .bind (readsWhole_pullTcpData sock true s (b := [c]) (b ++ rest) rfl) (.ite_neg (fun h => h rfl) ?_)
    have hif : (if type.code ≠ byteAt [c] 0 then (pure .badtype : Prog Status) else pure .success) = pure .badtype :=
      if_pos hc
    rw [hif]
    exact .pure
  cases header with
  | cast args => exact .bind (.bind (hpacket .cast hne) ⟨rfl, rfl⟩) .pure
  | flow packet => exact .bind (.bind (hpacket .flow hne) ⟨rfl, rfl⟩) .pure
  | send args => exact .bind (.bind (hpacket .send hne) ⟨rfl, rfl⟩) .pure
  | recv packet => exact .bind (.bind (hpacket .recv hne) ⟨rfl, rfl⟩) .pure

/-- A pull of the right type reads the fields back and takes the header off the stream. -/
theorem readsWhole_rightType (sock : Sockfd) (timeout : Int) (header : Header) (s : Proc) (fields : Fields) (rest : Bytes)
    (henc : fields.Encodable) (htype : header.type = fields.type) :
    ReadsWhole (pullHeader sock timeout header) s (fields.bytes ++ rest) (.success, fields.into header) rest := by
  cases fields with
  | cast crc info =>
    cases header with
    | cast args =>
      have h := readsWhole_packetInfostr sock .cast timeout s args rest (fun packet infostr =>
        { packet := convertCastPacket (.ofBytes packet), info := unpackFromInfostring infostr args.info : CastArgs })
        (CastPacket.length_bytes (packCastPacket crc)) rfl info
      rw [CastPacket.ofBytes_bytes, unpack_pack henc.1 henc.2.1 henc.2.2] at h
      simp only [convertCastPacket, packCastPacket, ntohs_htons] at h
      exact .bind h .pure
    | _ => nomatch htype
  | flow chunkSize sequence crc =>
    cases header with
    | flow packet =>
      have h := readsWhole_packetOnly sock .flow timeout s packet rest (fun packet => convertFlowPacket (.ofBytes packet))
        (FlowPacket.length_bytes (packFlowPacket chunkSize sequence crc)) rfl
      rw [FlowPacket.ofBytes_bytes] at h
      simp only [convertFlowPacket, packFlowPacket, ntohs_htons, ntohl_htonl] at h
      exact .bind h .pure
    | _ => nomatch htype
  | send chunkSize chunkCount partialChunkSize crc info =>
    cases header with
    | send args =>
      have h := readsWhole_pullSendHeader sock args timeout s
        { packet := packSendPacket chunkSize chunkCount partialChunkSize crc, info := info } rest rfl
      rw [unpack_pack henc.1 henc.2.1 henc.2.2] at h
      simp only [convertSendPacket, packSendPacket, ntohs_htons, ntohl_htonl] at h
      exact .bind h .pure
    | _ => nomatch htype
  | recv ack crc sequence =>
    cases header with
    | recv packet =>
      have h := readsWhole_pullRecvHeader sock packet timeout s (packRecvPacket ack crc sequence) rest rfl
      simp only [convertRecvPacket, packRecvPacket, ntohs_htons, ntohl_htonl] at h
      exact .bind h .pure
    | _ => nomatch htype

/-- Pulls one after the other read on where the first ones stopped. -/
theorem readsWhole_pullHeaders_append (sock : Sockfd) (timeout : Int) {s : Proc} {w m w' : Bytes} {hs hs' : List Header}
    {rs rs' : List (Status × Header)} (h : ReadsWhole (pullHeaders sock timeout hs) s w rs m)
    (h' : ReadsWhole (pullHeaders sock timeout hs') s m rs' w') :
    ReadsWhole (pullHeaders sock timeout (hs ++ hs')) s w (rs ++ rs') w' := by
  have heq : ∀ hs : List Header, pullHeaders sock timeout (hs ++ hs') =
      (do let rs ← pullHeaders sock timeout hs
          let rs' ← pullHeaders sock timeout hs'
          return rs ++ rs') := by
    intro hs
    induction hs with
    | nil => simp [pullHeaders]
    | cons header hs ih => simp [pullHeaders, ih]
  rw [heq]
  exact .bind h (.bind h' .pure)

theorem readsWhole_turn (sock : Sockfd) (timeout : Int) (s : Proc) (t : Turn) (rest : Bytes) :
    ReadsWhole (pullHeaders sock timeout t.pulls) s (t.fields.bytes ++ rest) t.results rest := by
  have hwrong : ∀ wrong : List Header, (∀ header ∈ wrong, header.type ≠ t.fields.type) →
      ReadsWhole (pullHeaders sock timeout wrong) s (t.fields.bytes ++ rest)
        (wrong.map (fun header => (.badtype, header))) (t.fields.bytes ++ rest) := by
    intro wrong hne
    induction wrong with
    | nil => exact .pure
    | cons header wrong ih =>
      rw [List.forall_mem_cons] at hne
      exact .bind (readsWhole_wrongType sock timeout header s t.fields rest hne.1) (.bind (ih hne.2) .pure)
  refine readsWhole_pullHeaders_append sock timeout (hwrong t.wrong t.wrong_type) ?_
  exact .bind (readsWhole_rightType sock timeout t.right s t.fields rest t.encodable t.right_type) (.bind .pure .pure)

end CodecAux

end RufShare
