import Atsha204.Analysis.Exchanges
import Atsha204.Analysis.Trails
import Atsha204.Interface.WriteRequest

/-!
# Write requests are refused or well formed, where the length is right

Of the four writes only the one of two OTP words looks at the length of its number; the
others narrow it to a byte and send as many data bytes, whatever the zone byte announces.
A request is refused or well formed exactly when it is one of those refused, or the
device can be worked with and the number has the announced length
(`write_request_iff`); a slot write of four bytes is neither (`write_request_fails`).
-/

set_option autoImplicit false

namespace Atsha204.Analysis

open Atsha204.Library
open Atsha204.Model
open Atsha204.Interface

variable {σ : Type} {env : Env σ}

/-! ## What is sent -/

/-- The packets of the first part come first. -/
theorem sentPackets_append (front back : List (Event σ)) :
    sentPackets (front ++ back) = sentPackets front ++ sentPackets back :=
  List.filterMap_append

/-- The trace goes on, and no packet is sent. -/
def NothingSent (s s' : St σ) : Prop :=
  ∃ events, s'.trace = s.trace ++ events ∧ sentPackets events = []

/-- The trace goes on, and one packet is sent, once or more. -/
def OnlySent (packet : Block) (s s' : St σ) : Prop :=
  ∃ events, s'.trace = s.trace ++ events ∧ packet ∈ sentPackets events ∧
    ∀ p ∈ sentPackets events, p = packet

/-- A packet that is the only one behind nothing is the only one. -/
theorem NothingSent.then_only {packet : Block} {s s₁ s₂ : St σ} (h : NothingSent s s₁)
    (h' : OnlySent packet s₁ s₂) : OnlySent packet s s₂ := by
  obtain ⟨events, htrace, hnone⟩ := h
  obtain ⟨events', htrace', hmem, honly⟩ := h'
  refine ⟨events ++ events', by rw [htrace', htrace, List.append_assoc], ?_⟩
  rw [sentPackets_append, hnone]
  exact ⟨hmem, honly⟩

/-- So is one before nothing. -/
theorem OnlySent.then_nothing {packet : Block} {s s₁ s₂ : St σ} (h : OnlySent packet s s₁)
    (h' : NothingSent s₁ s₂) : OnlySent packet s s₂ := by
  obtain ⟨events, htrace, hmem, honly⟩ := h
  obtain ⟨events', htrace', hnone⟩ := h'
  refine ⟨events ++ events', by rw [htrace', htrace, List.append_assoc], ?_⟩
  rw [sentPackets_append, hnone, List.append_nil]
  exact ⟨hmem, honly⟩

/-- Where nothing was sent there is no packet. -/
theorem NothingSent.sentSince_eq {s s' : St σ} (h : NothingSent s s') : sentSince s s' = [] := by
  obtain ⟨events, htrace, hnone⟩ := h
  rw [sentSince, htrace, List.drop_left' rfl, hnone]

/-- Where only one was sent there is no other one. -/
theorem OnlySent.sentSince_iff {packet : Block} {s s' : St σ} (h : OnlySent packet s s')
    (p : Block) : p ∈ sentSince s s' ↔ p = packet := by
  obtain ⟨events, htrace, hmem, honly⟩ := h
  rw [sentSince, htrace, List.drop_left' rfl]
  exact ⟨honly p, fun hp => hp ▸ hmem⟩

/-! ## What the parts of a request send -/

/-- The events of a wake send nothing. -/
theorem WakeTrace.nothingSent {s s' : St σ} (h : WakeTrace s s') : NothingSent s s' := by
  obtain ⟨events, htrace, hof⟩ := h
  refine ⟨events, htrace, List.filterMap_eq_nil_iff.mpr fun e he => ?_⟩
  have hwake := hof e he
  cases e with
  | written bytes ok b => exact hwake.elim
  | emulated packet => exact hwake.elim
  | _ => rfl

/-- The events of a command send its packet. -/
theorem CommandTrace.onlySent {packet : Block} {s s' : St σ} (h : CommandTrace packet s s') :
    OnlySent packet s s' := by
  obtain ⟨events, htrace, hof, ok, b, hmem⟩ := h
  refine ⟨events, htrace, List.mem_filterMap.mpr ⟨_, hmem, rfl⟩, fun p hp => ?_⟩
  obtain ⟨e, he, hsent⟩ := List.mem_filterMap.mp hp
  have hcommand := hof e he
  cases e with
  | written bytes ok b =>
    obtain rfl : bytes = atsha204I2cWaCommand :: packet := hcommand
    exact (Option.some.inj hsent).symm
  | emulated packet => exact hcommand.elim
  | _ => cases hsent

/-- Waking sends nothing, on either layer. -/
theorem wp_wake_sent (s : St σ) :
    wp (wake env) (fun _ s' => NothingSent s s' ∧
      s'.handle.bottomLayer = s.handle.bottomLayer) (NothingSent s) s := by
  cases hlayer : s.handle.bottomLayer with
  | emulation =>
    rw [wp_of_run (wake_run_emulation hlayer)]
    exact ⟨⟨[], by simp, rfl⟩, hlayer⟩
  | ni2c =>
    refine wp_mono (wp_wake_trace hlayer) ?_ fun _ h => h.nothingSent
    rintro _ s' ⟨hhandle, htrace⟩
    exact ⟨htrace.nothingSent, by rw [hhandle]; exact hlayer⟩

/-- Sending a write sends its packet, on either layer. -/
theorem wp_send_write (zone : UInt8) (address : UInt16) {data : Block}
    (hdata : data.length + 7 < 256) (s : St σ) :
    let packet := commandPacket atsha204OpcodeWrite zone address data
    wp (send env packet) (fun _ s' => OnlySent packet s s') (OnlySent packet s) s := by
  intro packet
  have hframed : Framed packet := framed_commandPacket _ _ _ hdata
  cases hlayer : s.handle.bottomLayer with
  | ni2c =>
    exact wp_mono (wp_command_trace hlayer (sentBytes_of_framed hframed))
      (fun _ _ h => h.2.onlySent) fun _ h => h.onlySent
  | emulation =>
    have hopcode : peek packet positionOpcode = some atsha204OpcodeWrite := rfl
    have hemul : wp (emulCommand env (nestedSlotRead env) packet)
        (fun _ s' => OnlySent packet s s') (OnlySent packet s) s := by
      simp only [emulCommand, wp_bind, wp_emit, wp_access, hopcode]
      refine ⟨[.emulated packet,
        .message "emulation: requested opconde not implemented"], ?_, ?_, ?_⟩
      · simp
      · exact List.mem_filterMap.mpr ⟨_, .head _, rfl⟩
      · simp [sentPackets]
    unfold wp at hemul ⊢
    rw [send, command_run_emulation hlayer]
    exact hemul

/-- Idling sends nothing. -/
theorem idled_nothingSent (s : St σ) : NothingSent s (idled env s) := by
  cases hlayer : s.handle.bottomLayer with
  | emulation => rw [idled_emulation hlayer]; exact ⟨[], by simp, rfl⟩
  | ni2c => rw [idled_ni2c hlayer]; exact ⟨_, rfl, rfl⟩

/-- Decoding the answer to a write sends nothing. -/
theorem wp_opRawWriteRecv_sent (answer : Block) (s : St σ) :
    wp (opRawWriteRecv answer) (fun _ s' => NothingSent s s') (NothingSent s) s := by
  simp only [opRawWriteRecv, justCheckStatus, wp_bind, wp_access]
  cases peek answer 1 with
  | none => exact ⟨[], by simp, rfl⟩
  | some status =>
    by_cases hstatus : status = atsha204StatusSucces
    · simp only [hstatus, if_true, wp_pure]
      exact ⟨[], by simp, rfl⟩
    · simp only [hstatus, if_false, wp_bind, wp_logMessage, wp_pure]
      exact ⟨[.message _], rfl, rfl⟩

/-! ## The requests -/

/-- A run that sends nothing and does not end as a refusal is neither of the two. -/
theorem not_refusedOrWellFormed {number : AtshaBigInt} {s : St σ}
    {x : Prog σ (AtshaErr × Unit)} (h : wp x
      (fun r s' => r.1 ≠ .invalidInput ∧ NothingSent s s') (NothingSent s) s) :
    ¬ ((∃ s', x.run s = .ok (.invalidInput, ()) s' ∧ sentSince s s' = []) ∨
      (sentSince s (lastState (x.run s)) ≠ [] ∧
        ∀ packet ∈ sentSince s (lastState (x.run s)), WellFormedWrite number packet)) := by
  rintro (⟨s', hrun, -⟩ | ⟨hsent, -⟩)
  · exact (h.of_run hrun).1 rfl
  · have hnone := (wp_lastState_iff _ _ _).mp (wp_mono h (fun _ _ h => h.2) fun _ h => h)
    exact hsent hnone.sentSince_eq

/-- The packet of a request that is not refused. -/
def writePacket (call : WriteCall) (number : AtshaBigInt) : Option Block :=
  opRawWrite call.zone call.address number.bytes number.data.val

/-- A request that is not refused is one exchange of its packet in a session.
SOURCE: api.c:444-483, api.c:735-769, api.c:809-883 -/
theorem writeCall_run {call : WriteCall} {number : AtshaBigInt} (h : ¬ call.Refused number) :
    call.run env number =
      session env () (statusExchange (send env) (writePacket call number) opRawWriteRecv) := by
  cases call with
  | slot slotNumber =>
    have hle : ¬ atsha204MaxSlotNumber < slotNumber := h
    have haddress := getSlotAddress_eq (UInt8.not_lt.mp hle)
    simp only [WriteCall.run, atshaRawSlotWrite, gt_iff_lt, hle, if_false, haddress,
      Option.bind_eq_bind, Option.bind_some]
    rfl
  | conf address => rfl
  | otp address => rfl
  | otp32 address =>
    have hbytes : number.bytes = 32 := not_not.mp h
    simp only [WriteCall.run, atshaRawOtp32Write, hbytes, ne_eq, not_true_eq_false, if_false]
    rw [writePacket, hbytes]
    rfl

/-- A refused request returns at once.
SOURCE: api.c:449-452, api.c:849-850 -/
theorem writeCall_run_refused {call : WriteCall} {number : AtshaBigInt}
    (h : call.Refused number) (s : St σ) :
    wp (call.run env number) (fun r s' => r = (.invalidInput, ()) ∧ NothingSent s s' ∧
      Logged s s') (fun _ => False) s := by
  cases call with
  | slot slotNumber =>
    have hlt : slotNumber > atsha204MaxSlotNumber := h
    simp only [WriteCall.run, atshaRawSlotWrite, hlt, if_true, wp_bind, wp_logMessage, wp_pure]
    exact ⟨trivial, ⟨[.message _], rfl, rfl⟩, .message s _⟩
  | otp32 address =>
    have hbytes : number.bytes ≠ 32 := h
    simp only [WriteCall.run, atshaRawOtp32Write, hbytes, ne_eq, not_false_eq_true, if_true,
      wp_pure]
    exact ⟨trivial, ⟨[], by simp, rfl⟩, .refl s⟩
  | conf address => exact h.elim
  | otp address => exact h.elim

/-- The device can be worked with exactly when `wake` succeeds. -/
theorem wakeable_iff (s : St σ) : Wakeable env s ↔ ∃ s', (wake env).run s = .ok .ok s' := by
  unfold Wakeable
  cases hlayer : s.handle.bottomLayer with
  | emulation => simp [wake_run_emulation hlayer]
  | ni2c =>
    by_cases hflag : s.handle.wakeIsExpected = true
    · have hreturn : wp (wake env) (fun status _ => status = .ok) (fun _ => False) s := by
        simp only [wake, wp_bind, wp_getHandle, hflag, if_true, wp_pure]
      obtain ⟨status, s', hrun, rfl⟩ := (wp_returns_iff _ _ _).mp hreturn
      simp [hflag, hrun]
    · have hiff := @wake_ok_iff σ env s hlayer (by simpa using hflag) fun _ _ => True
      simp only [and_true] at hiff
      simp [hflag, hiff]

/-- A request whose device cannot be worked with ends with another status than the one of
a refusal, or does not return; nothing is sent. -/
theorem wp_session_not_wakeable {s : St σ} (h : ¬ Wakeable env s) {α : Type} (out : α)
    (body : Prog σ (AtshaErr × α)) :
    wp (session env out body) (fun r s' => r.1 ≠ .invalidInput ∧ NothingSent s s')
      (NothingSent s) s := by
  have hlayer : s.handle.bottomLayer = .ni2c := by
    cases hl : s.handle.bottomLayer with
    | ni2c => rfl
    | emulation => exact (h (.inr (.inl hl))).elim
  have hsent := @wp_wake_sent σ env s
  rw [wp_session]
  unfold wp at hsent ⊢
  cases hwake : (wake env).run s with
  | error e s' => rw [hwake] at hsent; exact hsent
  | ok status s' =>
    rw [hwake] at hsent
    have hbad : status ≠ .ok := fun hok =>
      h ((wakeable_iff s).mpr ⟨s', by rw [hwake, hok]⟩)
    simp only [hbad, if_false]
    refine ⟨?_, hsent.1⟩
    rcases (wake_status hlayer hwake).resolve_left hbad with rfl | rfl <;> decide

/-- A request whose packet cannot be built does not return; nothing is sent. -/
theorem wp_session_unbuilt {s : St σ} (h : Wakeable env s) :
    wp (session env () (statusExchange (send env) none opRawWriteRecv))
      (fun r s' => r.1 ≠ .invalidInput ∧ NothingSent s s') (NothingSent s) s := by
  obtain ⟨s₁, hwake⟩ := (wakeable_iff s).mp h
  rw [wp_session, wp_of_run hwake]
  simp only [if_true]
  rw [wp_statusExchange]
  exact ((@wp_wake_sent σ env s).of_run hwake).1

/-- A request whose packet is built sends it, where the device can be worked with. -/
theorem wp_session_onlySent {s : St σ} (h : Wakeable env s) (zone : UInt8) (address : UInt16)
    {data : Block} (hdata : data.length + 7 < 256) :
    let packet := commandPacket atsha204OpcodeWrite zone address data
    wp (session env () (statusExchange (send env) (some packet) opRawWriteRecv))
      (fun _ s' => OnlySent packet s s') (OnlySent packet s) s := by
  intro packet
  obtain ⟨s₁, hwake⟩ := (wakeable_iff s).mp h
  have hfirst := ((@wp_wake_sent σ env s).of_run hwake).1
  rw [wp_session, wp_of_run hwake]
  simp only [if_true]
  rw [wp_statusExchange]
  refine wp_mono (wp_send_write zone address hdata s₁) ?_ fun _ h => hfirst.then_only h
  intro reply s₂ hsent
  have hsent := hfirst.then_only hsent
  by_cases hreply : reply.1 = .ok
  · simp only [hreply, if_true]
    cases reply.2 with
    | none => exact hsent
    | some answer =>
      refine wp_mono (wp_opRawWriteRecv_sent answer s₂) ?_ fun _ h => hsent.then_nothing h
      intro status s₃ hnone
      have hsent := hsent.then_nothing hnone
      by_cases hstatus : status = .ok
      · simp only [hstatus, if_true]
        exact hsent.then_nothing (idled_nothingSent s₃)
      · simp only [hstatus, if_false]
        exact hsent
  · simp only [hreply, if_false]
    exact hsent

/-- The size bit of the zone byte announces the width of the request. -/
theorem width_eq (call : WriteCall) :
    (if call.zone &&& 0x80 = 0 then 4 else 32) = call.width := by
  have h32 : ∀ zone : UInt8, zone &&& 0x80 ≠ 0 → (if zone &&& 0x80 = 0 then 4 else 32) = 32 :=
    fun _ h => if_neg h
  have h4 : ∀ zone : UInt8, zone &&& 0x80 = 0 → (if zone &&& 0x80 = 0 then 4 else 32) = 4 :=
    fun _ h => if_pos h
  cases call with
  | slot => exact h32 (getZoneConfig ioMemData ioRwNonEnc ioRw32Bytes) (by decide)
  | conf => exact h4 (getZoneConfig ioMemConfig ioRwNonEnc ioRw4Bytes) (by decide)
  | otp => exact h4 (getZoneConfig ioMemOtp ioRwNonEnc ioRw4Bytes) (by decide)
  | otp32 => exact h32 (getZoneConfig ioMemOtp ioRwNonEnc ioRw32Bytes) (by decide)

/-- No write is wider than 32 bytes. -/
theorem width_le (call : WriteCall) : call.width ≤ 32 := by
  cases call <;> simp [WriteCall.width]

/-- A packet that is built is well formed exactly when the number has the announced length. -/
theorem wellFormedWrite_iff (call : WriteCall) (number : AtshaBigInt)
    (hnarrow : number.bytes % 256 ≤ 32) :
    WellFormedWrite number (commandPacket atsha204OpcodeWrite call.zone call.address.toUInt16
      (number.data.val.take (number.bytes % 256))) ↔ number.bytes = call.width := by
  have hlen : (number.data.val.take (number.bytes % 256)).length = number.bytes % 256 := by
    rw [List.length_take, number.data.property]
    exact min_eq_left hnarrow
  constructor
  · rintro ⟨n, zone, low, high, crc0, crc1, hpacket, -, hbytes, hsize, -⟩
    have hzone : call.zone = zone := by
      simp only [commandPacket, sealed, commandBody, List.cons_append, List.nil_append,
        List.cons.injEq] at hpacket
      exact hpacket.2.2.1
    rw [← hzone, width_eq] at hsize
    rw [← hbytes, hsize]
  · intro hbytes
    have hwidth := width_le call
    have hmod : number.bytes % 256 = number.bytes := Nat.mod_eq_of_lt (by omega)
    rw [hmod] at hlen ⊢
    let body := commandBody atsha204OpcodeWrite call.zone call.address.toUInt16
      (number.data.val.take number.bytes)
    refine ⟨number.bytes, call.zone, (call.address.toUInt16 &&& 0x00FF).toUInt8,
      ((call.address.toUInt16 &&& 0xFF00) >>> 8).toUInt8, (checksum body).1, (checksum body).2,
      ?_, by omega, rfl, by rw [width_eq]; exact hbytes,
      checkPacket_commandPacket _ _ _ (by omega)⟩
    rw [commandPacket, sealed]
    simp only [body, commandBody, hlen]

/-- Of the requests whose packet is built, and sent, those are well formed whose number has
the announced length. -/
theorem refusedOrWellFormed_iff_of_built {call : WriteCall} {number : AtshaBigInt} {s : St σ}
    (href : ¬ call.Refused number) (hwake : Wakeable env s) (hnarrow : number.bytes % 256 ≤ 32) :
    RefusedOrWellFormed env call number s ↔ number.bytes = call.width := by
  have hpacket : writePacket call number = some _ :=
    opRawWrite_eq _ _ number.data.property hnarrow
  have hdata : (number.data.val.take (number.bytes % 256)).length + 7 < 256 := by
    rw [List.length_take]; omega
  have hsent := (wp_lastState_iff _ _ _).mp
    (wp_session_onlySent hwake call.zone call.address.toUInt16 hdata)
  have hmem := hsent.sentSince_iff
  simp only [RefusedOrWellFormed, writeCall_run href, hpacket]
  rw [← wellFormedWrite_iff call number hnarrow]
  constructor
  · rintro (⟨s', hrun, hnone⟩ | ⟨-, hall⟩)
    · rw [hrun] at hmem
      have hin := (hmem _).mpr rfl
      rw [lastState, hnone] at hin
      cases hin
    · exact hall _ ((hmem _).mpr rfl)
  · exact fun hwell => .inr ⟨List.ne_nil_of_mem ((hmem _).mpr rfl),
      fun p hp => (hmem p).mp hp ▸ hwell⟩

/-- A write request is refused with nothing sent, or sends well-formed packets only, exactly
when it is one of those that are refused, or the device can be worked with and the number
has the length that the zone byte announces.
SOURCE: operations.c:116-118, tools.c:67-93, api.c:444-483, api.c:735-883 -/
theorem write_request_iff (env : Env σ) (call : WriteCall) (number : AtshaBigInt) (s : St σ) :
    RefusedOrWellFormed env call number s ↔
      call.Refused number ∨ (Wakeable env s ∧ number.bytes = call.width) := by
  by_cases href : call.Refused number
  · obtain ⟨_, s', hrun, rfl, hnone, -⟩ :=
      (wp_returns_iff _ _ _).mp (@writeCall_run_refused σ env _ _ href s)
    exact iff_of_true (.inl ⟨s', hrun, hnone.sentSince_eq⟩) (.inl href)
  · rw [or_iff_right href]
    by_cases hwake : Wakeable env s
    · rw [and_iff_right hwake]
      by_cases hnarrow : number.bytes % 256 ≤ 32
      · exact refusedOrWellFormed_iff_of_built href hwake hnarrow
      · have hpacket : writePacket call number = none :=
          opRawWrite_of_lt _ _ number.data.property (by omega)
        have hwidth : number.bytes ≠ call.width := by
          have hle := width_le call
          omega
        simp only [RefusedOrWellFormed, writeCall_run href, hpacket]
        exact iff_of_false (not_refusedOrWellFormed (wp_session_unbuilt hwake)) hwidth
    · simp only [RefusedOrWellFormed, writeCall_run href]
      exact iff_of_false (not_refusedOrWellFormed (wp_session_not_wakeable hwake _ _))
        fun h => hwake h.1

/-- A slot write of four bytes is sent, under a zone byte that announces thirty-two. -/
theorem write_request_fails : ¬ ∀ (σ : Type) (env : Env σ) (call : WriteCall)
    (number : AtshaBigInt) (s : St σ), RefusedOrWellFormed env call number s := by
  intro h
  have hwake : Wakeable replayEnv (replayState [some wakeOkFrame]) :=
    .inr (.inr ⟨[], confirms_wakeOkFrame []⟩)
  have hrequest := h _ replayEnv (.slot 0) ⟨4, List.Vector.replicate _ 0⟩
    (replayState [some wakeOkFrame])
  have href : ¬ (WriteCall.slot 0).Refused ⟨4, List.Vector.replicate _ 0⟩ := by
    change ¬ (atsha204MaxSlotNumber < 0)
    decide
  have hbytes := (refusedOrWellFormed_iff_of_built href hwake (by decide)).mp hrequest
  cases hbytes

end Atsha204.Analysis
