/-
# The adapter follows the script of its calls

A call of `mobile_impl_sock_*` builds a request, sends it with `gbridge_cmd_data` and waits for the
acknowledgement, sends what there is to send as a stream, waits for the reply and takes it apart,
and receives what comes as a stream.  Each of these pieces goes through its part of the traffic
(`wpP_request`, `wpP_recvReply`, `wpP_finish`), so that the call comes back with the result of
`socket_impl_*` on the other side (`wpP_call`), as long as that fits the bytes it is sent in
(`Fits`).  A program that makes some calls, with passes of the main loop between them, plays the
script of these calls from beginning to end (`wpP_session`).
-/
import GBridge.Atmega.Stale
import GBridge.Atmega.Wait
import GBridge.Calls

namespace GBridge

open Prog Duplex Bytes
open Atmega (Play Env Result wpP LeftOver leftOver_nil)
open Bridge (SockCall intByte boolByte)

/-! ## 1. Results, there and back -/

theorem toNat_intByte (n : Int) : ((intByte n).toNat : Int) = n % 256 := by
  have hlt : n % 256 < 256 := Int.emod_lt_of_pos n (by decide)
  have hnonneg : 0 ≤ n % 256 := Int.emod_nonneg n (by decide)
  rw [intByte, UInt8.toNat_ofNat', Nat.mod_eq_of_lt (by omega), Int.toNat_of_nonneg hnonneg]

/-- A byte is read as the `char` it was. -/
theorem char_intByte {r : Int} (hlo : -128 ≤ r) (hhi : r < 128) :
    Atmega.char (intByte r) = r := by
  have hbyte := toNat_intByte r
  unfold Atmega.char
  split <;> omega

/-- Two bytes are read as the `int16_t` they were. -/
theorem int16_intBytes {r : Int} (hlo : -32768 ≤ r) (hhi : r < 32768) :
    Atmega.int16 (be16 (intByte (r >>> (8 : Nat))) (intByte r)) = r := by
  have hl := toNat_intByte r
  have hh := toNat_intByte (r >>> (8 : Nat))
  rw [Int.shiftRight_eq_div_pow] at hh
  have heq : ((be16 (intByte (r >>> (8 : Nat))) (intByte r) : Nat) : Int) =
      (intByte (r >>> (8 : Nat))).toNat * 256 + (intByte r).toNat := by
    rw [be16_eq]
    rfl
  unfold Atmega.int16
  rw [Int.shiftRight_eq_div_pow] at heq ⊢
  split <;> omega

theorem boolByte_ne_zero (b : Bool) : (boolByte b != 0) = b := by
  cases b <;> rfl

/-- A reply fits into a packet. -/
theorem reply_length (c : SockCall) (r : c.Res) :
    reply c r ≠ [] ∧ (reply c r).length ≤ maxDataSize := by
  cases c with
  | recv conn size addr =>
    obtain ⟨-, hle⟩ := addressWrite_length (some r.addr)
    refine ⟨List.cons_ne_nil _ _, ?_⟩
    simp only [reply, List.length_cons, maxDataSize]
    omega
  | _ => exact ⟨List.cons_ne_nil _ _, by simp [reply, maxDataSize]⟩

/-! ## 2. Calls -/

/-- What the traffic of a call needs; to a call of `recv` with no room no stream comes. -/
def MobileCall.Carried : MobileCall → Prop
  | .recv conn buffer size _ => conn < 256 ∧ size < 65536 ∧ size ≤ buffer.length
  | c => c.Proper

theorem MobileCall.Proper.carried {c : MobileCall} (h : c.Proper) : c.Carried := by
  cases c with
  | recv conn buffer size addr =>
    obtain ⟨hconn, -, hsize, hroom⟩ := h
    exact ⟨hconn, Nat.lt_of_le_of_lt hsize (by decide), hroom⟩
  | _ => exact h

/-- What is received fits into a stream. -/
def Fits : (c : SockCall) → c.Res → Prop
  | .recv .., r => r.res ≤ 255
  | _, _ => True

section Call

variable {v : Play} {pre : List UInt8} {G : List Event} {o : (c : SockCall) → c.Res}

/-- A request goes out, and the reply comes back. -/
theorem wpP_request {req : List UInt8} {c : SockCall} {Q : Option GbridgeData → Play → Prop}
    (hready : v.g.Ready) (hlen : req.length ≤ maxDataSize) (hpre : LeftOver pre)
    (hshare : v.share = .ofScript pre (asked req (answered o c G)))
    (h : ∀ rest v', Atmega.State.Ready { v'.g with dataReady := false } →
      v'.share = .ofScript [] G →
      Q (some ⟨UInt8.ofNat (reply c (o c)).length, reply c (o c) ++ rest⟩) v') :
    wpP .faultless true (Atmega.request (.ofList req)) Q v := by
  obtain ⟨hne, hle⟩ := reply_length c (o c)
  refine Atmega.wpP_bind (Atmega.wpP_gbridgeCmdData hready hlen hpre hshare ?_)
  intro v₁ hready₁ hshare₁
  exact Atmega.wpP_gbridgeRecvDataWait hready₁ hle hne hshare₁ h

/-- The end of every call. -/
theorem wpP_finish {r : Result} {Q : Result → Play → Prop}
    (hready : Atmega.State.Ready { v.g with dataReady := false })
    (hshare : v.share = .ofScript [] G)
    (h : ∀ v', v'.g.Ready → v'.share = .ofScript [] G → Q r v') :
    wpP .faultless true (do Atmega.gbridgeRecvDataDone; return r) Q v :=
  Atmega.wpP_bind (Atmega.wpP_gbridgeRecvDataDone hready fun v' hready' hshare' =>
    h v' hready' (hshare'.trans hshare))

/-- `mobile_impl_sock_recv` makes of the reply what was put into it, and gets the stream. -/
theorem wpP_recvReply {buffer rest : List UInt8} {size : Nat} {addr : Option MobileAddr}
    {r : Bridge.RecvRes} {conn : Nat} {Q : Result → Play → Prop} (hroom : size ≤ buffer.length)
    (hr : Proper (.recv conn (some size) (some .none)) r) (hfits : r.res ≤ 255)
    (hready : Atmega.State.Ready { v.g with dataReady := false })
    (hshare : v.share = .ofScript [] (streamed r G))
    (h : ∀ v', v'.g.Ready → v'.share = .ofScript [] G →
      Q (.recv r.res (r.data.take r.res.toNat ++ buffer.drop r.res.toNat)
        (addr.map fun _ => r.addr)) v') :
    wpP .faultless true (Atmega.recvReply buffer size addr (some
      ⟨UInt8.ofNat (reply (.recv conn (some size) (some .none)) r).length,
        reply (.recv conn (some size) (some .none)) r ++ rest⟩)) Q v := by
  obtain ⟨hlo, hhi, hdata⟩ : -32768 ≤ r.res ∧ r.res ≤ size ∧ r.res ≤ r.data.length := hr
  let d : GbridgeData := ⟨UInt8.ofNat (reply (.recv conn (some size) (some .none)) r).length,
    reply (.recv conn (some size) (some .none)) r ++ rest⟩
  obtain ⟨hone, hle⟩ := addressWrite_length (some r.addr)
  have hlen : d.size.toNat = (addressWrite (some r.addr)).length + 3 := by
    show (UInt8.ofNat ((addressWrite (some r.addr)).length + 3)).toNat = _
    rw [UInt8.toNat_ofNat']
    exact Nat.mod_eq_of_lt (by omega)
  have hread : Atmega.addressReadSize d = some (addressWrite (some r.addr)).length := by
    have hguard : ¬ (d.size < 2 ∨ d.buffer.getD 0 0 ≠ ProtMa.cmdRecv) := by
      rintro (hlt | hne)
      · have hlt := UInt8.lt_iff_toNat_lt.mp hlt
        rw [hlen] at hlt
        exact absurd hlt (Nat.not_lt_of_le (Nat.le_add_left 2 _))
      · exact hne rfl
    rw [Atmega.addressReadSize, if_neg hguard, hlen]
    exact congrArg some (by omega)
  have haddr : addressRead (d.buffer.drop 3) (addressWrite (some r.addr)).length =
      ((addressWrite (some r.addr)).length, some r.addr) :=
    addressRead_write (some r.addr) rest _ (Nat.le_refl _)
  have hres : Atmega.int16 (be16 (d.buffer.getD 1 0) (d.buffer.getD 2 0)) = r.res :=
    int16_intBytes hlo (by omega)
  have hmap : (addr.map fun a => (some r.addr).getD a) = addr.map fun _ => r.addr := rfl
  show wpP .faultless true (Atmega.recvReply buffer size addr (some d)) Q v
  simp only [Atmega.recvReply, hread, haddr, hres, hlen, hmap]
  refine Atmega.wpP_ite (fun hbad => absurd hbad ?_) fun _ => ?_
  · exact not_or.mpr ⟨Nat.ne_zero_of_lt hone, not_not.mpr rfl⟩
  refine Atmega.wpP_bind (Atmega.wpP_gbridgeRecvDataDone hready fun v₁ hready₁ hshare₁ => ?_)
  have hshare₁ := hshare₁.trans hshare
  refine Atmega.wpP_ite (fun hnone => ?_) fun hsome => ?_
  · rw [streamed, if_pos hnone] at hshare₁
    rw [Int.toNat_of_nonpos hnone] at h
    exact h v₁ hready₁ hshare₁
  · rw [streamed, if_neg hsome] at hshare₁
    have hpayload : (r.data.take r.res.toNat).length = r.res.toNat := by
      rw [List.length_take]
      omega
    refine Atmega.wpP_bind (Atmega.wpP_gbridgeRecvStreamWait hready₁ (by omega) (by omega)
      (by omega)
      hroom hshare₁ fun v₂ hready₂ hbuf hshare₂ => ?_)
    refine Atmega.wpP_ite (fun _ => Atmega.wpP_get ?_) fun hno => absurd rfl hno
    have hq := h v₂ hready₂ hshare₂
    rw [hbuf, hpayload]
    exact hq

/-- What is asked of the results of `socket_impl_*` that a call leads to. -/
def MobileCall.Answers (o : (c : SockCall) → c.Res) (c : MobileCall) : Prop :=
  ∀ s ∈ c.sock, GBridge.Proper s (o s) ∧ Fits s (o s)

/-- `mobile_impl_sock_listen` and `mobile_impl_sock_accept` -/
theorem wpP_mobileImplSockFlag {cmd : UInt8} {conn : Nat} {c : SockCall} {b : Bool}
    {Q : Result → Play → Prop} (hready : v.g.Ready) (hpre : LeftOver pre)
    (hreply : reply c (o c) = [cmd, boolByte b])
    (hshare : v.share = .ofScript pre (asked [cmd, UInt8.ofNat conn] (answered o c G)))
    (h : ∀ v', v'.g.Ready → v'.share = .ofScript [] G → Q (.bool b) v') :
    wpP .faultless true (Atmega.mobileImplSockFlag cmd conn) Q v := by
  refine Atmega.wpP_bind (wpP_request hready (by simp [maxDataSize]) hpre hshare ?_)
  intro rest v₁ hready₁ hshare₁
  rw [hreply]
  refine Atmega.wpP_ite (fun _ => ?_) fun hno => absurd ⟨rfl, rfl⟩ hno
  rw [← boolByte_ne_zero b] at h
  exact wpP_finish hready₁ hshare₁ h

/-- **Every call goes through its traffic and returns what it should.** -/
theorem wpP_call {c : MobileCall} {Q : Result → Play → Prop} (hc : c.Carried) (ho : c.Answers o)
    (hready : v.g.Ready) (hpre : LeftOver pre) (hshare : v.share = .ofScript pre (c.traffic o G))
    (h : ∀ v', v'.g.Ready → v'.share = .ofScript [] G → Q (c.result o) v') :
    wpP .faultless true c.code Q v := by
  cases c with
  | debugLine line =>
    exact Atmega.wpP_bind (Atmega.wpP_gbridgeCmdDebugLine hready hc hpre hshare h)
  | «open» conn type addrtype bindport =>
    refine Atmega.wpP_bind (wpP_request hready (by simp [maxDataSize]) hpre hshare ?_)
    intro rest v₁ hready₁ hshare₁
    refine Atmega.wpP_ite (fun _ => ?_) fun hno => absurd ⟨rfl, rfl⟩ hno
    have hres := boolByte_ne_zero (o (.open conn type addrtype bindport))
    rw [MobileCall.result, ← hres] at h
    exact wpP_finish hready₁ hshare₁ h
  | close conn =>
    refine Atmega.wpP_bind (wpP_request hready (by simp [maxDataSize]) hpre hshare ?_)
    intro rest v₁ hready₁ hshare₁
    exact wpP_finish hready₁ hshare₁ h
  | connect conn addr =>
    obtain ⟨hlo, hhi⟩ : -128 ≤ _ ∧ _ < 128 := (ho _ rfl).1
    obtain ⟨-, hle⟩ := addressWrite_length addr
    refine Atmega.wpP_bind (wpP_request hready ?_ hpre hshare ?_)
    · simp only [List.length_cons, maxDataSize]
      omega
    intro rest v₁ hready₁ hshare₁
    refine Atmega.wpP_ite (fun _ => ?_) fun hno => absurd ⟨rfl, rfl⟩ hno
    rw [MobileCall.result, ← char_intByte hlo hhi] at h
    exact wpP_finish hready₁ hshare₁ h
  | listen conn => exact wpP_mobileImplSockFlag hready hpre rfl hshare h
  | accept conn => exact wpP_mobileImplSockFlag hready hpre rfl hshare h
  | send conn buffer addr =>
    obtain ⟨hlo, hhi⟩ : -32768 ≤ _ ∧ _ < 32768 := (ho _ rfl).1
    obtain ⟨-, hle⟩ := addressWrite_length addr
    refine Atmega.wpP_bind (Atmega.wpP_gbridgeCmdData hready ?_ hpre hshare ?_)
    · simp only [List.length_cons, maxDataSize]
      omega
    intro v₁ hready₁ hshare₁
    refine Atmega.wpP_bind (Atmega.wpP_get ?_)
    rw [hready₁.idle.connected]
    refine Atmega.wpP_ite (fun _ => ?_) fun hno => absurd rfl hno
    refine Atmega.wpP_stream hready₁ hshare₁ fun v₂ hready₂ hshare₂ => ?_
    obtain ⟨hne, hle⟩ := reply_length (.send conn buffer (some (wireAddr addr)))
      (o (.send conn buffer (some (wireAddr addr))))
    refine Atmega.wpP_bind (Atmega.wpP_gbridgeRecvDataWait hready₂ hle hne hshare₂ ?_)
    intro rest v₃ hready₃ hshare₃
    refine Atmega.wpP_ite (fun _ => ?_) fun hno => absurd ⟨rfl, rfl⟩ hno
    rw [MobileCall.result, ← int16_intBytes hlo hhi] at h
    exact wpP_finish hready₃ hshare₃ h
  | recv conn buffer size addr =>
    obtain ⟨-, -, hroom⟩ := hc
    obtain ⟨hr, hfits⟩ := ho _ rfl
    show wpP .faultless true (Atmega.mobileImplSockRecv conn buffer size addr) Q v
    rw [Atmega.mobileImplSockRecv_reply]
    refine Atmega.wpP_bind (wpP_request hready (by simp [maxDataSize]) hpre hshare ?_)
    intro rest v₁ hready₁ hshare₁
    exact wpP_recvReply hroom hr hfits hready₁ hshare₁ h

/-- Where no more than 255 bytes are asked for, no more come. -/
theorem MobileCall.Proper.answers {c : MobileCall} (hc : c.Proper)
    (ho : ∀ s, GBridge.Proper s (o s)) : c.Answers o := by
  intro s hs
  refine ⟨ho s, ?_⟩
  cases c with
  | recv conn buffer size addr =>
    cases hs
    obtain ⟨-, hle, -⟩ := ho (.recv conn (some size) (some .none))
    have hsize : (size : Int) ≤ 255 := Int.ofNat_le.mpr hc.2.2.1
    exact Int.le_trans hle hsize
  | debugLine line => cases hs
  | _ =>
    cases hs
    trivial

/-! ## 3. Sessions -/

/-- Of what is older than the script, a pass of the main loop throws away a byte, or nothing. -/
theorem wpP_pass {Q : Unit → Play → Prop} (hready : v.g.Ready) (hpre : LeftOver pre)
    (hdue : (view G).1 = []) (hshare : v.share = .ofScript pre G)
    (h : ∀ v' pre', LeftOver pre' → v'.g.Ready → v'.share = .ofScript pre' G → Q () v') :
    wpP .faultless true Job.pass.code Q v := by
  obtain ⟨⟨hup, hproc, hwait⟩, hempty, hdisarmed, hroom⟩ := hready
  -- no packet has come, so that `gbridge_prot_ma_loop` does nothing
  have hnothing : ∀ v' pre', LeftOver pre' → v'.g.Ready → v'.share = .ofScript pre' G →
      wpP .faultless true Atmega.gbridgeProtMaLoop Q v' := by
    intro v' pre' hpre' hready' hshare'
    refine Atmega.wpP_bind (Atmega.wpP_get ?_)
    rw [hready'.empty]
    exact h v' pre' hpre' hready' hshare'
  refine Atmega.wpP_bind (Atmega.wpP_get (Atmega.wpP_ite (fun _ => Atmega.wpP_get ?_) fun hdown =>
    absurd hup hdown))
  rw [hproc, hwait]
  refine Atmega.wpP_bind (Atmega.wpP_ite (fun hne => absurd rfl hne) fun _ => ?_)
  refine Atmega.wpP_ite (fun h => absurd h Bool.false_ne_true) fun _ => Atmega.wpP_bind ?_
  refine Atmega.wpP_ite (fun hne => absurd rfl hne) fun _ => ?_
  refine Atmega.wpP_ite (fun h => absurd h Bool.false_ne_true) fun _ => ?_
  refine Atmega.wpP_get (Atmega.wpP_ite (fun _ => ?_) fun hne => absurd hproc hne)
  refine Atmega.wpP_bind (Atmega.wpP_available fun n p hle _ => Atmega.wpP_ite (fun _ => ?_)
    fun hpos => ?_)
  · exact hnothing _ pre hpre ⟨⟨hup, hproc, hwait⟩, hempty, hdisarmed, hroom⟩ hshare
  cases pre with
  | nil =>
    rw [hshare] at hle
    have hnil : n ≤ ([] : List UInt8).length := hdue ▸ hle
    exact absurd (Nat.le_zero.mp hnil) hpos
  | cons c pre =>
    have hpre' : LeftOver pre := hpre.tail
    have hc := Atmega.handshake_quiet c (hpre c List.mem_cons_self)
    refine Atmega.wpP_bind (Atmega.wpP_getchar_old (Nat.pos_of_ne_zero hpos) hshare ?_)
    refine Atmega.wpP_ite (fun h => absurd h hc.1) fun _ => Atmega.wpP_get ?_
    refine Atmega.wpP_ite (fun h => absurd hwait h) fun _ => ?_
    refine Atmega.wpP_bind (Atmega.wpP_timerGet ?_)
    intro now _
    refine Atmega.wpP_bind (Atmega.wpP_modify (fun _ => hup) (Atmega.wpP_get (Atmega.wpP_bind ?_)))
    show wpP .faultless true (Atmega.recvCmd c) _ _
    rw [Atmega.recvCmd, if_neg hc.2.1, if_neg hc.2.2.1, if_neg hc.2.2.2]
    refine Atmega.wpP_ite (fun _ => Atmega.wpP_modify (fun _ => hup) ?_) fun hne => absurd rfl hne
    exact hnothing _ pre hpre' ⟨⟨hup, rfl, hwait⟩, hempty, hdisarmed, hroom⟩ rfl

/-- Nothing is due before an event of our own. -/
theorem view_of_head : ∀ {G : List Event}, (∀ e ∈ G.head?, e.ours = true) → (view G).1 = []
  | [], _ | .mine _ :: _, _ | .note _ :: _, _ => rfl
  | .theirs b :: _, h => nomatch h (.theirs b) rfl
  | .noted c :: _, h => nomatch h (.noted c) rfl

/-- The calls of the jobs. -/
def calls (js : List Job) : List MobileCall := js.filterMap Job.call?

/-- The calls can be carried, and what `socket_impl_*` returns of each of them too. -/
def Answered (oracle : Oracle) : Nat → List MobileCall → Prop
  | _, [] => True
  | n, c :: cs => c.Carried ∧ c.Answers (oracle n) ∧ Answered oracle (n + c.socks) cs

theorem answered_proper {oracle : Oracle} (ho : ∀ n s, GBridge.Proper s (oracle n s)) :
    ∀ {cs : List MobileCall} (n : Nat), (∀ c ∈ cs, c.Proper) → Answered oracle n cs
  | [], _, _ => trivial
  | c :: _, n, hcs => by
    have hc : c.Proper := hcs c List.mem_cons_self
    exact ⟨hc.carried, hc.answers (ho n),
      answered_proper ho _ fun c' hc' => hcs c' (List.mem_cons_of_mem _ hc')⟩

/-- **A session plays the script of its calls.** -/
theorem wpP_session {oracle : Oracle} : ∀ {js : List Job} {n : Nat} {v : Play} {pre : List UInt8},
    Answered oracle n (calls js) → v.g.Ready → LeftOver pre →
    v.share = .ofScript pre (script oracle n (calls js)) →
    wpP .faultless true (session js) (fun _ v' => v'.share.out = []) v
  | [], _, _, _, _, _, _, hshare => by
    show Share.out _ = []
    rw [hshare]
    rfl
  | .pass :: js, n, v, pre, hcs, hready, hpre, hshare => by
    refine Atmega.wpP_bind (wpP_pass hready hpre ?_ hshare ?_)
    · exact view_of_head (head_script oracle n (calls js))
    · intro v₁ pre₁ hpre₁ hready₁ hshare₁
      exact wpP_session hcs hready₁ hpre₁ hshare₁
  | .call c :: js, n, v, pre, hcs, hready, hpre, hshare => by
    obtain ⟨hc, ho, hcs⟩ := hcs
    refine Atmega.wpP_bind (Atmega.wpP_bind (wpP_call hc ho hready hpre hshare ?_))
    intro v₁ hready₁ hshare₁
    refine Atmega.wpP_returned hshare₁ ?_
    exact wpP_session hcs hready₁ leftOver_nil rfl

end Call

end GBridge
