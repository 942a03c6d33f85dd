/-
# The bridge follows the script

A request is the encoding of its call (`MobileCall.encodes`), so that `gbridge_prot_ma_loop` makes
this call and no other, and the reply it sends is the one the script has (`wpB_perform`).  One pass
of the loop of `main` serves one call, or finds that nothing has come yet (`wpB_pass`); so the loop
plays the script from beginning to end, and goes on polling (`wpB_mainLoop`).

A pass may also find less than a command: the poll of `gbridge_loop` takes one byte, and everything
behind it is read with the long timeout, which on this line never passes.  Handshakes that are left
over from the linking come first, and are unknown commands to the bridge (`wpB_pass_early`).
-/
import GBridge.Bridge.Grammar
import GBridge.Bridge.Wait
import GBridge.Session

namespace GBridge

open Prog Duplex Bytes
open Bridge (SockCall Encodes wpB inBuffer)
open Atmega (Result)

/-! ## 1. Requests -/

/-- The request packet of a call. -/
def MobileCall.request : MobileCall → List UInt8
  | .debugLine _ => []
  | .open conn type addrtype bindport =>
    [ProtMa.cmdOpen, UInt8.ofNat conn, type, addrtype, hi bindport, lo bindport]
  | .close conn => [ProtMa.cmdClose, UInt8.ofNat conn]
  | .connect conn addr => ProtMa.cmdConnect :: UInt8.ofNat conn :: addressWrite addr
  | .listen conn => [ProtMa.cmdListen, UInt8.ofNat conn]
  | .accept conn => [ProtMa.cmdAccept, UInt8.ofNat conn]
  | .send conn _ addr => ProtMa.cmdSend :: UInt8.ofNat conn :: addressWrite addr
  | .recv conn _ size _ => [ProtMa.cmdRecv, UInt8.ofNat conn, hi size, lo size]

/-- The bytes that follow it as a stream. -/
def MobileCall.payload : MobileCall → List UInt8
  | .send _ buffer _ => buffer
  | _ => []

/-- On the line the null pointer is the address of no type. -/
theorem addressWrite_wireAddr (addr : Option MobileAddr) :
    addressWrite (some (wireAddr addr)) = addressWrite addr := by
  cases addr <;> rfl

theorem toNat_conn {conn : Nat} (h : conn < 256) : (UInt8.ofNat conn).toNat = conn := by
  rw [UInt8.toNat_ofNat']
  exact Nat.mod_eq_of_lt h

theorem be16_word {n : Nat} (h : n < 65536) : be16 (hi n) (lo n) = n := by
  rw [be16_hi_lo, Nat.mod_eq_of_lt h]

/-- **The request of a call is its encoding.** -/
theorem MobileCall.encodes {c : MobileCall} {s : SockCall} (hc : c.Carried) (hs : s ∈ c.sock) :
    Encodes c.payload c.request s := by
  cases c with
  | debugLine line => cases hs
  | «open» conn type addrtype bindport =>
    obtain ⟨hconn, hport⟩ := hc
    cases hs
    have h := @Encodes.open [] (UInt8.ofNat conn) type addrtype (hi bindport) (lo bindport)
    rw [toNat_conn hconn, be16_word hport] at h
    exact h
  | close conn =>
    cases hs
    have h := @Encodes.close [] (UInt8.ofNat conn)
    rw [toNat_conn hc] at h
    exact h
  | connect conn addr =>
    obtain ⟨hconn, haddr⟩ := hc
    cases hs
    have h := @Encodes.connect [] (UInt8.ofNat conn) _ haddr
    rw [toNat_conn hconn, addressWrite_wireAddr] at h
    exact h
  | listen conn =>
    cases hs
    have h := @Encodes.listen [] (UInt8.ofNat conn)
    rw [toNat_conn hc] at h
    exact h
  | accept conn =>
    cases hs
    have h := @Encodes.accept [] (UInt8.ofNat conn)
    rw [toNat_conn hc] at h
    exact h
  | send conn buffer addr =>
    obtain ⟨hconn, -⟩ := hc
    cases hs
    have h := @Encodes.send buffer (UInt8.ofNat conn) (wireAddr addr)
    rw [toNat_conn hconn, addressWrite_wireAddr] at h
    exact h
  | recv conn buffer size addr =>
    obtain ⟨hconn, hsize, -⟩ := hc
    cases hs
    have h := @Encodes.recv [] (UInt8.ofNat conn) (hi size) (lo size)
    rw [toNat_conn hconn, be16_word (by omega)] at h
    exact h

theorem MobileCall.request_length {c : MobileCall} {s : SockCall} (hs : s ∈ c.sock) :
    1 ≤ c.request.length ∧ c.request.length ≤ maxDataSize := by
  have haddr := fun addr => (addressWrite_length addr).2
  cases c with
  | debugLine line => cases hs
  | connect conn addr | send conn _ addr =>
    have hle := haddr addr
    simp only [request, List.length_cons, maxDataSize]
    omega
  | _ => simp [request, maxDataSize]

/-! ## 2. The script, seen from the bridge -/

/-- The bytes to be sent, as a stream. -/
def streamOut : SockCall → List Event → List Event
  | .send _ data _, G => sent Cmd.stream (streamFrame Cmd.stream data) G
  | _, G => G

/-- The bytes that were received, as a stream. -/
def streamBack : (s : SockCall) → s.Res → List Event → List Event
  | .recv .., r, G => streamed r G
  | _, _, G => G

/-- The traffic of a call, in one form for all calls. -/
theorem MobileCall.traffic_eq {o : (c : SockCall) → c.Res} {G : List Event} {c : MobileCall}
    {s : SockCall} (hs : s ∈ c.sock) : c.traffic o G =
      asked c.request (streamOut s (answered o s (streamBack s (o s) G))) := by
  cases c <;> cases hs <;> rfl

section Swap

variable {cmd : UInt8} {frame : List UInt8} {G : List Event}

theorem map_swap_sent : (sent cmd frame G).map Ev.swap =
    frame.map .theirs ++ .mine (ack cmd) :: G.map Ev.swap := by
  simp [sent, Function.comp_def, Ev.swap]

theorem map_swap_got : (got cmd frame G).map Ev.swap =
    frame.map .mine ++ .theirs (ack cmd) :: G.map Ev.swap := by
  simp [got, Function.comp_def, Ev.swap]

end Swap

/-! ## 3. The handlers -/

section Handlers

variable {oracle : Oracle} {ls : List (List UInt8)} {v : Bridge.Play} {G : List Event}
  {s : SockCall}

/-- What a handler does to the ghost world. -/
structure Served (v v' : Bridge.Play) : Prop where
  g : v'.g = v.g
  calls : v'.calls = v.calls + 1
  printed : v'.printed = v.printed
  patience : v'.patience ≤ v.patience

/-- The reply, and the stream behind it. -/
theorem wpB_reply {r : s.Res} {Q : Bool → Bridge.Play → Prop} (hr : Proper s r)
    (hready : v.g.connected = true ∧ v.g.waitingCmd = Cmd.none)
    (hshare : v.share = .ofScript [] ((got Cmd.dataPc (dataFrame Cmd.dataPc (reply s r))
      (streamBack s r G)).map Ev.swap))
    (h : ∀ b v', v.Waited v' → v'.share = .ofScript [] (G.map Ev.swap) → Q b v') :
    wpB (.faultless oracle ls) true (s.reply r) Q v := by
  obtain ⟨hup, hidle⟩ := hready
  obtain ⟨-, hlen⟩ := reply_length s r
  rw [map_swap_got] at hshare
  cases s with
  | recv conn size addr =>
    refine Bridge.wpB_bind (Bridge.wpB_gbridgeCmdData hup hidle hlen hshare ?_)
    intro v₁ hwaited hshare₁
    have hup₁ : v₁.g.connected = true := hwaited.g ▸ hup
    refine Bridge.wpB_bind (Bridge.wpB_get ?_)
    rw [hup₁]
    refine Bridge.wpB_ite (fun hdown => absurd hdown Bool.false_ne_true) fun _ => ?_
    refine Bridge.wpB_ite (fun hnone => ?_) fun hsome => ?_
    · rw [streamBack, streamed, if_pos hnone] at hshare₁
      exact h true v₁ hwaited hshare₁
    · rw [streamBack, streamed, if_neg hsome, map_swap_got] at hshare₁
      obtain ⟨-, -, hdata⟩ := hr
      refine Bridge.wpB_bind (Bridge.wpB_gbridgeCmdStream hup₁ (hwaited.g ▸ hidle) (by omega)
        hshare₁ ?_)
      intro v₂ hwaited₂ hshare₂
      exact h true v₂ ⟨hwaited₂.g.trans hwaited.g, hwaited₂.calls.trans hwaited.calls,
        hwaited₂.printed.trans hwaited.printed,
        Nat.le_trans hwaited₂.patience hwaited.patience⟩ hshare₂
  | _ => exact Bridge.wpB_bind (Bridge.wpB_gbridgeCmdData hup hidle hlen hshare (h true))

/-- The call, and the reply to it. -/
theorem wpB_answered {Q : Bool → Bridge.Play → Prop} (hr : Proper s (oracle v.calls s))
    (hready : v.g.connected = true ∧ v.g.waitingCmd = Cmd.none)
    (hshare : v.share = .ofScript [] ((answered (oracle v.calls) s
      (streamBack s (oracle v.calls s) G)).map Ev.swap))
    (h : ∀ b v', Served v v' → v'.share = .ofScript [] (G.map Ev.swap) → Q b v') :
    wpB (.faultless oracle ls) true (do let r ← Bridge.sock s; s.reply r) Q v := by
  refine Bridge.wpB_bind (Bridge.wpB_sock hshare (wpB_reply hr hready rfl ?_))
  intro b v' hwaited hshare'
  exact h b v' ⟨hwaited.g, hwaited.calls, hwaited.printed, hwaited.patience⟩ hshare'

/-- **The handler makes the call of the script, and sends the reply of the script.** -/
theorem wpB_perform {Q : Bool → Bridge.Play → Prop} (hr : Proper s (oracle v.calls s))
    (hlong : ∀ conn data addr, s = .send conn data addr → data.length ≤ 0x200)
    (hready : v.g.connected = true ∧ v.g.waitingCmd = Cmd.none)
    (hshare : v.share = .ofScript [] ((streamOut s (answered (oracle v.calls) s
      (streamBack s (oracle v.calls s) G))).map Ev.swap))
    (h : ∀ b v', Served v v' → v'.share = .ofScript [] (G.map Ev.swap) → Q b v') :
    wpB (.faultless oracle ls) true s.ask.perform Q v := by
  cases s with
  | send conn data addr =>
    have hle : data.length ≤ 0x200 := hlong conn data addr rfl
    rw [streamOut, map_swap_sent] at hshare
    refine Bridge.wpB_bind (Bridge.wpB_gbridgeRecvStream (feed_script _ _) hready.1 ?_ hle hshare
      (fun _ => ?_) fun hbad => absurd ?_ hbad)
    · exact be16_word (by omega)
    · refine Bridge.wpB_ite (fun hneg => absurd hneg (by simp)) fun _ => ?_
      rw [Int.toNat_natCast, List.take_length]
      refine wpB_answered hr hready rfl fun b v' hs => ?_
      exact h b v' ⟨hs.g, hs.calls, hs.printed, hs.patience⟩
    · exact be16_word (GbridgeData.checksumData_lt _)
  | _ => exact wpB_answered hr hready hshare h

/-! ## 4. The loop of `main` -/

/-- Between two passes: the bridge is ready, and this is what is left of the script. -/
structure Between (oracle : Oracle) (ls : List (List UInt8)) (cs : List MobileCall)
    (v : Bridge.Play) : Prop where
  ready : v.g.Ready
  printed : v.printed ++ lines cs = ls
  answered : Answered oracle v.calls cs
  share : v.share = .ofScript [] ((script oracle v.calls cs).map Ev.swap)

/-- `gbridge_prot_ma_loop` with nothing to do. -/
theorem wpB_protMaLoop_idle {Q : Unit → Bridge.Play → Prop} (hempty : v.g.dataReady = false)
    (h : Q () v) : wpB (.faultless oracle ls) true Bridge.gbridgeProtMaLoop Q v := by
  refine Bridge.wpB_bind (Bridge.wpB_get ?_)
  rw [hempty]
  exact h

/-- `gbridge_prot_ma_loop` with a request: its call is made, and the reply sent. -/
theorem wpB_protMaLoop_request {c : MobileCall} {Q : Unit → Bridge.Play → Prop}
    {before : List UInt8}
    (hc : c.Carried) (hs : s ∈ c.sock) (hr : Proper s (oracle v.calls s))
    (hg : v.g.connected = true ∧ v.g.waitingCmd = Cmd.none)
    (hthere : v.g.dataReady = true) (hdata : v.g.data = inBuffer c.request before)
    (hshare : v.share = .ofScript [] ((streamOut s (answered (oracle v.calls) s
      (streamBack s (oracle v.calls s) G))).map Ev.swap))
    (h : ∀ v', v'.g.Ready → v'.calls = v.calls + 1 → v'.printed = v.printed →
      v'.patience ≤ v.patience → v'.share = .ofScript [] (G.map Ev.swap) → Q () v') :
    wpB (.faultless oracle ls) true Bridge.gbridgeProtMaLoop Q v := by
  obtain ⟨hpos, hlen⟩ := MobileCall.request_length hs
  refine Bridge.wpB_bind (Bridge.wpB_get ?_)
  rw [hthere, hdata]
  refine Bridge.wpB_ite (fun hshort => absurd hpos ?_) fun _ => ?_
  · rw [← Bridge.size_inBuffer before hlen]
    exact Nat.not_le_of_lt hshort
  rw [Bridge.handleRequest_eq, (MobileCall.encodes hc hs).asks_eq hlen]
  refine Bridge.wpB_bind (wpB_perform hr ?_ hg hshare fun b v₁ hserved hshare₁ => ?_)
  · rintro conn data addr rfl
    cases c with
    | send conn buffer addr =>
      cases hs
      exact hc.2
    | _ => cases hs
  have hup₁ : v₁.g.connected = true := hserved.g ▸ hg.1
  refine Bridge.wpB_modify (fun _ => hup₁) ?_
  exact h _ ⟨hup₁, hserved.g ▸ hg.2, rfl⟩ hserved.calls hserved.printed hserved.patience hshare₁

/-- A pass has served a call of the script, or cost some patience. -/
def Passed (oracle : Oracle) (ls : List (List UInt8)) (cs : List MobileCall) (v v' : Bridge.Play) :
    Prop :=
  ∃ cs', cs' <:+ cs ∧ v'.patience + cs'.length < v.patience + cs.length ∧ Between oracle ls cs' v'

/-- A poll that brings nothing. -/
theorem wpB_pass_early {cs : List MobileCall} (hv : Between oracle ls cs v) (p : Nat)
    (hcost : Costs true True v.patience p) :
    wpB (.faultless oracle ls) true Bridge.gbridgeProtMaLoop
      (fun _ v' => Passed oracle ls cs v v') { v with patience := p } := by
  obtain ⟨⟨hup, hidle, hempty⟩, hprinted, hanswered, hshare⟩ := hv
  refine wpB_protMaLoop_idle hempty ⟨cs, List.suffix_refl _, ?_, ⟨hup, hidle, hempty⟩, hprinted,
    hanswered, hshare⟩
  exact Nat.add_lt_add_right (hcost.less rfl trivial) _

/-- A line is printed. -/
theorem wpB_pass_debugLine {line : List UInt8} {cs : List MobileCall}
    (hv : Between oracle ls (.debugLine line :: cs) v) :
    wpB (.faultless oracle ls) true (do Bridge.gbridgeLoop; Bridge.gbridgeProtMaLoop)
      (fun _ v' => Passed oracle ls (.debugLine line :: cs) v v') v := by
  have hearly := wpB_pass_early hv
  obtain ⟨⟨hup, hidle, hempty⟩, hprinted, ⟨hc, -, hanswered⟩, hshare⟩ := hv
  have hline : (UInt8.ofNat line.length).toNat = line.length := by
    rw [UInt8.toNat_ofNat']
    exact Nat.mod_eq_of_lt (Nat.lt_succ_of_le hc)
  rw [script, MobileCall.traffic, map_swap_sent] at hshare
  refine Bridge.wpB_bind (Bridge.wpB_gbridgeLoop (feed_script _ _) hup hidle hshare
    (fun _ => hearly) ?_)
  refine Bridge.wpB_ite (fun _ => ?_) fun hne => absurd rfl hne
  refine Bridge.wpB_recvCmdDebugLine (feed_script _ _) hline.symm rfl ?_ ?_
  · exact ⟨lines cs, by rw [← hprinted, List.append_assoc]; rfl⟩
  · refine wpB_protMaLoop_idle hempty
      ⟨cs, List.suffix_cons _ _, ?_, ⟨hup, hidle, hempty⟩, ?_, hanswered, rfl⟩
    · exact Nat.add_lt_add_left (Nat.lt_succ_self _) _
    · rw [← hprinted, List.append_assoc]
      rfl

/-- A request is served. -/
theorem wpB_pass_request {c : MobileCall} {cs : List MobileCall} (hs : s ∈ c.sock)
    (hv : Between oracle ls (c :: cs) v) :
    wpB (.faultless oracle ls) true (do Bridge.gbridgeLoop; Bridge.gbridgeProtMaLoop)
      (fun _ v' => Passed oracle ls (c :: cs) v v') v := by
  have hearly := wpB_pass_early hv
  obtain ⟨⟨hup, hidle, hempty⟩, hprinted, ⟨hc, ho, hanswered⟩, hshare⟩ := hv
  obtain ⟨-, hlen⟩ := MobileCall.request_length hs
  have hsock : c.sock = some s := hs
  have hline : lines (c :: cs) = lines cs := by
    cases c with
    | debugLine line => cases hsock
    | _ => rfl
  have hsocks : c.socks = 1 := by
    rw [MobileCall.socks, hsock]
    rfl
  have hsize : (UInt8.ofNat c.request.length).toNat = c.request.length :=
    Bridge.size_inBuffer [] hlen
  rw [script, MobileCall.traffic_eq hs, asked, map_swap_sent] at hshare
  refine Bridge.wpB_bind (Bridge.wpB_gbridgeLoop (feed_script _ _) hup hidle hshare
    (fun _ => hearly) ?_)
  refine Bridge.wpB_ite (fun h => absurd h (by decide)) fun _ => ?_
  refine Bridge.wpB_ite (fun _ => ?_) fun hne => absurd rfl hne
  refine Bridge.wpB_recvCmdData (feed_script _ _) hup hempty hsize.symm rfl (fun _ => ?_)
    fun hbad => absurd (be16_checksum (Nat.lt_of_le_of_lt hlen (by decide))) hbad
  refine wpB_protMaLoop_request hc hs (ho s hs).1 ⟨hup, hidle⟩ rfl rfl rfl ?_
  intro v' hready' hcalls' hprinted' hpatience' hshare'
  rw [hsocks] at hanswered
  refine ⟨cs, List.suffix_cons c cs, ?_, hready', ?_, ?_, ?_⟩
  · rw [List.length_cons]
    have hle : v'.patience ≤ v.patience := hpatience'
    omega
  · rw [hprinted', ← hline]
    exact hprinted
  · rw [hcalls']
    exact hanswered
  · rw [hshare', hsocks, hcalls']
    rfl

/-- **A pass of the loop of `main` serves one call, or finds that nothing has come yet.** -/
theorem wpB_pass {cs : List MobileCall} (hv : Between oracle ls cs v) :
    wpB (.faultless oracle ls) true (do Bridge.gbridgeLoop; Bridge.gbridgeProtMaLoop)
      (fun _ v' => Passed oracle ls cs v v') v := by
  cases cs with
  | nil =>
    refine Bridge.wpB_bind (Bridge.wpB_get
      (Bridge.wpB_ite (fun _ => ?_) fun hdown => absurd hv.ready.connected hdown))
    exact Bridge.wpB_bind (Bridge.wpB_poll_over hv.share
      ((List.append_nil _).symm.trans hv.printed) (wpB_pass_early hv))
  | cons c cs =>
    cases hsock : c.sock with
    | none =>
      cases c with
      | debugLine line => exact wpB_pass_debugLine hv
      | _ => cases hsock
    | some s => exact wpB_pass_request hsock hv

/-- **The loop of `main` plays the script, and goes on polling.** -/
theorem wpB_mainLoop {cs : List MobileCall} {Q : Unit → Bridge.Play → Prop}
    (hv : Between oracle ls cs v) :
    wpB (.faultless oracle ls) true Bridge.mainLoop Q v := by
  refine wpre_whileM (fun n v' => ∃ cs', cs' <:+ cs ∧ n = v'.patience + cs'.length ∧
    Between oracle ls cs' v') _ ⟨cs, List.suffix_refl _, rfl, hv⟩ ?_
  rintro n v₁ ⟨cs₁, hsuffix, rfl, hv₁⟩
  refine Bridge.wpB_get ?_
  rw [hv₁.ready.connected]
  refine (wpre_ret true).mpr ?_
  rw [if_pos rfl]
  refine wpre_mono ?_ (wpB_pass hv₁)
  rintro _ v₂ ⟨cs₂, hsuffix₂, hless, hv₂⟩
  exact ⟨_, fun _ => hless, cs₂, hsuffix₂.trans hsuffix, rfl, hv₂⟩

end Handlers

end GBridge
