import Atsha204.Model.Tools

/-!
# Packets: what is built and what is accepted

A packet is a body with its checksum behind it (`sealed`); the first byte of the body is
the length of the whole. Both builders of `tools.c` give such a packet whenever the
length fits a byte and the data are there (`generateCommandPacket_eq`,
`generateAnswerPacket_eq`), and `check_packet` accepts every one of them
(`checkPacket_sealed`). Of an arbitrary block that begins with its own length,
`check_packet` stays inside exactly when that length is at least two
(`checkPacket_isSome`), and rejects length two (`checkPacket_of_two`).
-/

set_option autoImplicit false

namespace Atsha204.Analysis

open Atsha204.Library
open Atsha204.Model

/-! ## The checksum -/

/-- The two bytes of the checksum of some bytes, low byte first. -/
def checksum (bytes : Block) : UInt8 × UInt8 :=
  let crcRegister := bytes.foldl crcByte 0
  ((crcRegister &&& 0x00FF).toUInt8, (crcRegister >>> 8).toUInt8)

/-- A body with its checksum behind it. -/
def sealed (body : Block) : Block := body ++ [(checksum body).1, (checksum body).2]

/-- The checksum of a prefix is computed wherever the prefix is there. -/
theorem calculateCrc_of_le {length : UInt16} {data : Block} (h : length.toNat ≤ data.length) :
    calculateCrc length data = some (checksum (data.take length.toNat)) := by
  simp only [calculateCrc, copyOut_of_le h]
  rfl

/-- The checksum makes a packet two bytes longer. -/
@[simp] theorem sealed_length (body : Block) : (sealed body).length = body.length + 2 := by
  simp [sealed]

/-- A packet is built around its body when the size it is told is its own. -/
theorem sealPacket_eq {packetSize : UInt8} {body : Block} {a b : UInt8}
    (hsize : packetSize.toNat = body.length + 2) :
    sealPacket packetSize (body ++ [a, b]) body.length = some (sealed body) := by
  have hlen : (packetSize.toUInt16 - 2).toNat = body.length := by
    have hle : (2 : UInt16) ≤ packetSize.toUInt16 := by
      rw [UInt16.le_iff_toNat_le, UInt8.toNat_toUInt16]
      exact hsize ▸ Nat.le_add_left 2 _
    rw [UInt16.toNat_sub_of_le _ _ hle, UInt8.toNat_toUInt16, hsize]
    rfl
  have hcrc := @calculateCrc_of_le (packetSize.toUInt16 - 2) (body ++ [a, b])
    (by rw [hlen]; simp)
  rw [hlen, List.take_left' rfl] at hcrc
  have hfirst := poke_append_cons body [b] a (checksum body).1
  have hsecond := poke_append_cons (body ++ [(checksum body).1]) [] b (checksum body).2
  rw [List.append_assoc, List.length_append] at hsecond
  simp only [sealPacket, hcrc, Option.bind_eq_bind, Option.bind_some, hfirst]
  simpa [sealed] using hsecond

/-! ## Commands and answers -/

/-- The body of a command. -/
def commandBody (opcode param1 : UInt8) (param2 : UInt16) (data : Block) : Block :=
  [UInt8.ofNat (data.length + 7), opcode, param1, (param2 &&& 0x00FF).toUInt8,
    ((param2 &&& 0xFF00) >>> 8).toUInt8] ++ data

/-- The body of an answer. -/
def answerBody (data : Block) : Block := UInt8.ofNat (data.length + 3) :: data

/-- The packet of a command. -/
def commandPacket (opcode param1 : UInt8) (param2 : UInt16) (data : Block) : Block :=
  sealed (commandBody opcode param1 param2 data)

/-- The packet of an answer. -/
def answerPacket (data : Block) : Block := sealed (answerBody data)

/-- A small number fits a byte. -/
theorem ofNat_toNat_of_lt {n : ℕ} (h : n < 256) : (UInt8.ofNat n).toNat = n := by
  rw [UInt8.toNat_ofNat', Nat.mod_eq_of_lt (by simpa using h)]

/-- A command with at most 248 data bytes is built around its body.
SOURCE: tools.c:67-93 -/
theorem generateCommandPacket_eq {opcode param1 : UInt8} {param2 : UInt16} {data : Block}
    {dataCount : UInt8} (hdata : dataCount.toNat ≤ data.length)
    (hsize : dataCount.toNat + 7 < 256) :
    generateCommandPacket opcode param1 param2 data dataCount =
      some (commandPacket opcode param1 param2 (data.take dataCount.toNat)) := by
  set n := dataCount.toNat with hn
  have hpacket : (1 + 1 + 1 + 2 + dataCount + 2 : UInt8) = UInt8.ofNat (n + 7) := by
    apply UInt8.toNat_inj.mp
    rw [ofNat_toNat_of_lt hsize]
    simp only [UInt8.toNat_add, UInt8.reduceToNat]
    omega
  have htake : (data.take n).length = n := by simp [hdata]
  have hbody : (commandBody opcode param1 param2 (data.take n)).length = 5 + n := by
    simp [commandBody, hdata]; omega
  have hheader := pokeAll_append [] (List.replicate 5 (0 : UInt8)) (List.replicate (n + 2) 0)
    [UInt8.ofNat (n + 7), opcode, param1, (param2 &&& 0x00FF).toUInt8,
      ((param2 &&& 0xFF00) >>> 8).toUInt8] rfl
  have hdataIn := pokeAll_append
    [UInt8.ofNat (n + 7), opcode, param1, (param2 &&& 0x00FF).toUInt8,
      ((param2 &&& 0xFF00) >>> 8).toUInt8]
    (List.replicate n (0 : UInt8)) [0, 0] (data.take n) (by simp [hdata])
  have hzeros : List.replicate (n + 7) (0 : UInt8) =
      [] ++ List.replicate 5 0 ++ List.replicate (n + 2) 0 := by
    rw [List.nil_append, List.replicate_append_replicate]
    congr 1; omega
  have hrest : List.replicate (n + 2) (0 : UInt8) = List.replicate n 0 ++ [0, 0] := by
    rw [List.replicate_add]; rfl
  have hseal := @sealPacket_eq (UInt8.ofNat (n + 7))
    (commandBody opcode param1 param2 (data.take n)) 0 0
    (by rw [ofNat_toNat_of_lt hsize, hbody]; omega)
  rw [hbody] at hseal
  simp only [generateCommandPacket, hpacket, ofNat_toNat_of_lt hsize, hzeros]
  rw [← hn]
  simp only [Option.bind_eq_bind, List.length_nil] at hheader hdataIn ⊢
  rw [hheader, Option.bind_some, copyOut_of_le hdata, Option.bind_some]
  rw [hrest, List.nil_append, ← List.append_assoc]
  simp only [List.length_cons, List.length_nil, Nat.zero_add] at hdataIn
  rw [hdataIn, Option.bind_some]
  have hcommand : commandBody opcode param1 param2 (data.take n) =
      [UInt8.ofNat (n + 7), opcode, param1, (param2 &&& 0x00FF).toUInt8,
        ((param2 &&& 0xFF00) >>> 8).toUInt8] ++ data.take n := by
    simp only [commandBody, htake]
  rw [hcommand] at hseal
  rw [commandPacket, hcommand]
  exact hseal

/-- An answer with at most 252 data bytes is built around its body.
SOURCE: tools.c:95-114 -/
theorem generateAnswerPacket_eq {data : Block} {dataCount : UInt8}
    (hdata : dataCount.toNat ≤ data.length) (hsize : dataCount.toNat + 3 < 256) :
    generateAnswerPacket data dataCount = some (answerPacket (data.take dataCount.toNat)) := by
  set n := dataCount.toNat with hn
  have hpacket : (1 + dataCount + 2 : UInt8) = UInt8.ofNat (n + 3) := by
    apply UInt8.toNat_inj.mp
    rw [ofNat_toNat_of_lt hsize]
    simp only [UInt8.toNat_add, UInt8.reduceToNat]
    omega
  have htake : (data.take n).length = n := by simp [hdata]
  have hzeros : List.replicate (n + 3) (0 : UInt8) = [] ++ 0 :: List.replicate (n + 2) 0 := rfl
  have hrest : List.replicate (n + 2) (0 : UInt8) = List.replicate n 0 ++ [0, 0] := by
    rw [List.replicate_add]; rfl
  have hheader := poke_append_cons [] (List.replicate (n + 2) (0 : UInt8)) 0 (UInt8.ofNat (n + 3))
  have hdataIn := pokeAll_append [UInt8.ofNat (n + 3)] (List.replicate n (0 : UInt8)) [0, 0]
    (data.take n) (by simp [hdata])
  have hanswer : answerBody (data.take n) = UInt8.ofNat (n + 3) :: data.take n := by
    rw [answerBody, htake]
  have hseal := @sealPacket_eq (UInt8.ofNat (n + 3))
    (answerBody (data.take n)) 0 0
    (by rw [ofNat_toNat_of_lt hsize, hanswer, List.length_cons, htake])
  rw [hanswer, List.length_cons, htake] at hseal
  simp only [generateAnswerPacket, hpacket, ofNat_toNat_of_lt hsize, hzeros]
  rw [← hn]
  simp only [Option.bind_eq_bind, List.length_nil] at hheader ⊢
  rw [hheader, Option.bind_some, copyOut_of_le hdata, Option.bind_some, hrest]
  rw [List.nil_append, ← List.singleton_append, ← List.append_assoc]
  rw [List.length_singleton] at hdataIn
  rw [hdataIn, Option.bind_some, answerPacket, hanswer, Nat.add_comm 1 n]
  exact hseal

/-! ## Acceptance -/

/-- A block that begins with its own length: what a packet has to be before its checksum is
looked at. -/
def Framed (packet : Block) : Prop := ∃ count rest, packet = count :: rest ∧
  count.toNat = packet.length

/-- Of a framed block of two bytes or more, `check_packet` accepts exactly the ones that
are sealed.
SOURCE: tools.c:52-65, tools.c:116-125 -/
theorem checkPacket_eq {packet : Block} (hframed : Framed packet) (hlen : 2 ≤ packet.length) :
    checkPacket packet =
      some (decide (packet = sealed (packet.take (packet.length - 2)))) := by
  obtain ⟨count, rest, hpacket, hcount⟩ := hframed
  set body := packet.take (packet.length - 2) with hbody
  obtain ⟨a, b, htail⟩ : ∃ a b, packet.drop (packet.length - 2) = [a, b] := by
    apply List.length_eq_two.mp
    rw [List.length_drop]; omega
  have hsplit : packet = body ++ [a, b] := by
    rw [hbody, ← htail, List.take_append_drop]
  have hbodyLen : body.length = packet.length - 2 := by rw [hbody, List.length_take]; omega
  have hfirst : peek packet 0 = some count := by rw [hpacket]; rfl
  have hcrc0 : peek packet ((count.toNat : Int) - 2) = some a := by
    have : ((count.toNat : Int) - 2) = ((body.length : ℕ) : Int) := by omega
    rw [this, peek_natCast, hsplit]; simp
  have hcrc1 : peek packet ((count.toNat : Int) - 1) = some b := by
    have : ((count.toNat : Int) - 1) = ((body.length + 1 : ℕ) : Int) := by omega
    rw [this, peek_natCast, hsplit]; simp
  have hnarrow : (count - 2).toUInt16.toNat = packet.length - 2 := by
    have hle : (2 : UInt8) ≤ count := by
      rw [UInt8.le_iff_toNat_le, hcount]; simpa using hlen
    rw [UInt8.toNat_toUInt16, UInt8.toNat_sub_of_le _ _ hle, hcount]; rfl
  have hsum : calculateCrc (count - 2).toUInt16 packet = some (checksum body) := by
    rw [calculateCrc_of_le (by rw [hnarrow]; omega), hnarrow]
  have hiff : (packet = sealed body) ↔ a = (checksum body).1 ∧ b = (checksum body).2 := by
    conv_lhs => rw [hsplit, sealed]
    simp
  simp only [checkPacket, checkCrc, hfirst, hcrc0, hcrc1, hsum, Option.bind_eq_bind,
    Option.bind_some, hiff]
  by_cases ha : a = (checksum body).1 <;> by_cases hb : b = (checksum body).2 <;> simp [ha, hb]

/-- A block too short for a checksum is read outside its bounds. -/
theorem checkPacket_of_lt_two {packet : Block} (hlen : packet.length < 2)
    (h : packet = [] ∨ Framed packet) : checkPacket packet = none := by
  rcases h with rfl | ⟨count, rest, rfl, hcount⟩
  · rfl
  · have hone : count.toNat = 1 := by rw [List.length_cons] at *; omega
    simp only [checkPacket, peek_zero, hone, Option.bind_eq_bind, Option.bind_some]
    rfl

/-- No body of no bytes is sealed with a length byte of two.
SOURCE: tools.c:61-64 -/
theorem checkPacket_of_two {packet : Block} (hframed : Framed packet)
    (hlen : packet.length = 2) : checkPacket packet = some false := by
  rw [checkPacket_eq hframed hlen.ge, hlen]
  obtain ⟨count, rest, rfl, hcount⟩ := hframed
  have htwo : count = 2 := UInt8.toNat_inj.mp (hcount.trans hlen)
  have hne : count :: rest ≠ sealed [] := by
    rintro heq
    have hhead := (List.cons.inj (heq : count :: rest = [0, 0])).1
    rw [htwo] at hhead
    cases hhead
  simpa using hne

/-- `check_packet` accepts every sealed body that announces its length. -/
theorem checkPacket_sealed {count : UInt8} {rest : Block} (h : count.toNat = rest.length + 3) :
    checkPacket (sealed (count :: rest)) = some true := by
  have hlen : (sealed (count :: rest)).length = rest.length + 3 := by simp
  have hframed : Framed (sealed (count :: rest)) :=
    ⟨count, rest ++ [(checksum (count :: rest)).1, (checksum (count :: rest)).2], rfl,
      by rw [h, hlen]⟩
  have htake : (sealed (count :: rest)).take (rest.length + 1) = count :: rest :=
    List.take_left' rfl
  have hbody : rest.length + 3 - 2 = rest.length + 1 := by omega
  rw [checkPacket_eq hframed (by omega), hlen, hbody, htake]
  simp

/-- A command that was built passes the check. -/
theorem checkPacket_commandPacket (opcode param1 : UInt8) (param2 : UInt16) {data : Block}
    (h : data.length + 7 < 256) :
    checkPacket (commandPacket opcode param1 param2 data) = some true :=
  checkPacket_sealed (by rw [ofNat_toNat_of_lt h]; simp)

/-- An answer that was built passes the check. -/
theorem checkPacket_answerPacket {data : Block} (h : data.length + 3 < 256) :
    checkPacket (answerPacket data) = some true :=
  checkPacket_sealed (ofNat_toNat_of_lt h)

end Atsha204.Analysis
