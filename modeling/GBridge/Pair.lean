/-
# The two programs on one line

Here the adapter and the bridge run together, joined by two channels that lose nothing.  Nothing
times out; otherwise the moves of the two and the arrivals of bytes come in any order.

Each of the two has been followed on its own along the script of the calls: the adapter in `Session`
(`wpP_session`), the bridge in `Serve` (`wpB_mainLoop`).  That neither can leave the script when
they run together is a general fact about two parties that follow one script (`Lib.Duplex`): the
bytes that one has sent and the other has not taken are always the next ones of the script.
`OnScript` says that the pair is in such a state; every run stays in it (`runs_onScript`), and from
each of its states the script can be played to its end (`runs_end`, by `Lib.Progress`).

So the calls made on the adapter come to pass on the bridge one by one (`calls_once`):

* at every moment what has happened is an initial piece of what is `expected`, for a call and its
  result are noted where the script has them (`log_expected`);
* when the adapter is through it is all of it (`log_of_ret`), and whatever has happened, the rest of
  it still can.  In particular neither side ever waits for the other in vain;
* neither link goes down, since each specification wants that of every operation (`runs_connected`).

The calls are within bounds (`MobileCall.Proper`), and beyond them the code does not always keep its
word: of the length of a stream, say, `recv_cmd_stream_pc` keeps the low byte only (`RoundTrip`).
-/
import GBridge.Atmega.Party
import GBridge.Bridge.Honest
import GBridge.Bridge.Party
import GBridge.Serve

namespace GBridge

open Prog Duplex
open Atmega (Result LeftOver)
open Bridge (SockCall)

/-! ## 1. The system -/

/-- The adapter, the bridge, the line between them and the log of the calls. -/
abbrev System : Type 1 :=
  Pair UInt8 Result SockCall (Atmega.Code Unit × Atmega.State) (Bridge.Code Unit × Bridge.Side)

/-- The system gets from one state to the other; the `socket_impl_*` calls return what `oracle`
says. -/
abbrev Runs (oracle : Oracle) : System → System → Prop :=
  PairReach (party Atmega.moves) (party (Bridge.moves oracle))

/-- After the handshake: the adapter is about to make its calls, the bridge is about to enter the
loop of `main`, and these bytes have arrived at the adapter or are on their way to it. -/
def start (js : List Job) (a : Atmega.State) (b : Bridge.State) (rx fly : List UInt8) : System where
  left := (session js, a)
  right := (Bridge.mainLoop, { g := b })
  rxL := rx
  flyL := fly
  rxR := []
  flyR := []
  log := []

/-- The same start, the adapter being about to run any program. -/
def startWith (p : Atmega.Code Unit) (a : Atmega.State) (b : Bridge.State) (rx fly : List UInt8) :
    System :=
  { start [] a b rx fly with left := (p, a) }

/-- The bridge repeats its handshake until it is answered, so that some may be left over. -/
def surplus (k : Nat) : List UInt8 := (List.replicate k handshake).flatten

theorem leftOver_surplus (k : Nat) : LeftOver (surplus k) := by
  intro c hc
  obtain ⟨l, hl, hmem⟩ := List.mem_flatten.mp hc
  rw [List.eq_of_mem_replicate hl] at hmem
  exact hmem

/-- `gbridge_init` and the handshake leave the adapter ready. -/
theorem adapter_ready {g : Atmega.State} (hroom : g.dataBuf.length = maxDataSize) :
    Atmega.State.Ready { g.init with connected := true } :=
  ⟨⟨rfl, rfl, rfl⟩, rfl, rfl, hroom⟩

/-- They leave the bridge ready too. -/
theorem bridge_ready (g : Bridge.State) : Bridge.State.Ready { g.init with connected := true } :=
  ⟨rfl, rfl, rfl⟩

/-! ## 2. Both follow the script -/

/-- What the adapter still has to do. -/
abbrev adapterPart : Part UInt8 Result (Atmega.Code Unit × Atmega.State) :=
  fun c early inp out => Playing (Atmega.play .faultless) Atmega.Play.g Atmega.Play.share
    Atmega.Play.patience (fun _ v => v.share.out = []) c ⟨inp, early, out⟩

/-- What the bridge still has to do; it never comes to an end. -/
abbrev bridgePart (oracle : Oracle) (ls : List (List UInt8)) :
    Part UInt8 SockCall (Bridge.Code Unit × Bridge.Side) :=
  fun c early inp out => Playing (Bridge.play (.faultless oracle ls)) Bridge.Play.side
    Bridge.Play.share Bridge.Play.patience (fun _ _ => False) c ⟨inp, early, out⟩

section Run

variable {oracle : Oracle} {p : Atmega.Code Unit} {cs : List MobileCall} {js : List Job}
  {a : Atmega.State} {b : Bridge.State} {rx fly : List UInt8} {k : Nat} {σ σ' : System}

/-- The system is on its way through the script of these calls. -/
abbrev OnScript (oracle : Oracle) (cs : List MobileCall) (σ : System) : Prop :=
  σ.Agrees adapterPart (bridgePart oracle (lines cs)) (script oracle 0 cs)

/-- At the start, a program that plays the script and the bridge have the whole of it before
them. -/
theorem startWith_onScript (hcs : Answered oracle 0 cs)
    (hp : ∀ v pre, v.g.Ready → LeftOver pre → v.share = .ofScript pre (script oracle 0 cs) →
      Atmega.wpP .faultless true p (fun _ v' => v'.share.out = []) v)
    (ha : a.Ready) (hb : b.Ready) (hsurplus : rx ++ fly = surplus k) :
    OnScript oracle cs (startWith p a b rx fly) := by
  refine agrees_start rfl ?_ ?_
  · intro n
    have hpre : LeftOver (rx ++ fly) := hsurplus ▸ leftOver_surplus k
    exact ⟨⟨a, 0, n, .ofScript (rx ++ fly) (script oracle 0 cs)⟩, rfl, rfl, Nat.le_refl n,
      hp _ _ ha hpre rfl⟩
  · intro n
    exact ⟨⟨b, 0, [], n, .ofScript [] ((script oracle 0 cs).map Ev.swap)⟩, rfl, rfl,
      Nat.le_refl n, wpB_mainLoop ⟨hb, rfl, hcs, rfl⟩⟩

theorem start_onScript (hcs : Answered oracle 0 (calls js)) (ha : a.Ready) (hb : b.Ready)
    (hsurplus : rx ++ fly = surplus k) :
    OnScript oracle (calls js) (start js a b rx fly) :=
  startWith_onScript hcs (fun _ _ hready hpre hshare => wpP_session hcs hready hpre hshare) ha hb
    hsurplus

/-- Whatever happens, both stay on their way through the script. -/
theorem runs_onScript (hσ : OnScript oracle cs σ) (hrun : Runs oracle σ σ') :
    OnScript oracle cs σ' :=
  reach_agrees (party_follows Atmega.plays _) (party_follows Bridge.plays _)
    (turns_script oracle _ 0) hrun hσ

/-- Neither side resets the link, and the bridge prints no line but those it was sent. -/
theorem runs_connected (hσ : OnScript oracle cs σ) (hrun : Runs oracle σ σ')
    (ha : σ.left.2.connected = true)
    (hb : σ.right.2.g.connected = true ∧ σ.right.2.printed <+: lines cs) :
    σ'.left.2.connected = true ∧
      σ'.right.2.g.connected = true ∧ σ'.right.2.printed <+: lines cs :=
  reach_keeps (I := fun c => c.2.connected = true)
    (J := fun c => c.2.g.connected = true ∧ c.2.printed <+: lines cs)
    (party_follows Atmega.plays _) (party_follows Bridge.plays _) (turns_script oracle _ 0)
    (fun h hm => Atmega.stays_connected h hm) (fun h hm => Bridge.stays_connected h hm) hrun
    hσ ⟨ha, hb⟩

/-- What has happened is an initial piece of what is expected. -/
theorem log_expected (hσ : OnScript oracle cs σ) : σ.log <+: expected oracle 0 cs := by
  rw [← notes_script]
  exact log_isPrefix hσ

/-- When the adapter is through, all has happened. -/
theorem log_of_ret (hσ : OnScript oracle cs σ) (hret : σ.left.1 = .ret ()) :
    σ.log = expected oracle 0 cs := by
  rw [← notes_script]
  refine log_complete hσ ?_ (last_script oracle _ 0)
  intro early inp out h
  obtain ⟨v, -, hshare, -, hwp⟩ := h 0
  rw [hret] at hwp
  have hout : v.share.out = [] := hwp
  rwa [hshare] at hout

/-- Whatever has happened, the rest still can. -/
theorem runs_end (hσ : OnScript oracle cs σ) : ∃ σ', Runs oracle σ σ' ∧ σ'.left.1 = .ret () ∧
    σ'.log = expected oracle 0 cs ∧ σ'.right.2.printed = lines cs := by
  have hP : Follows (party Atmega.moves) adapterPart := party_follows Atmega.plays _
  have hR : Follows (party (Bridge.moves oracle)) (bridgePart oracle (lines cs)) :=
    party_follows Bridge.plays _
  have hL : Lively (party Atmega.moves) adapterPart fun c =>
      ∃ v, Atmega.Play.g v = c.2 ∧ ((∃ u, c.1 = .ret u ∧ v.share.out = []) ∨ False) :=
    lively_party Atmega.moving (fun _ _ h => h) fun _ h => h.elim
  have hLR : Lively (party (Bridge.moves oracle)) (bridgePart oracle (lines cs)) fun c =>
      ∃ v, Bridge.Play.side v = c.2 ∧ ((∃ u, c.1 = .ret u ∧ False) ∨
        (v.share.out = [] ∧ v.printed = lines cs)) :=
    lively_party Bridge.moving (fun _ _ h => h.elim) fun _ h => h.1
  obtain ⟨σ', hrun, ⟨v, -, hret⟩, w, hw, hdone⟩ :=
    reach_end hP hR (turns_script oracle _ 0) hL hLR hσ
  have hσ' := reach_agrees hP hR (turns_script oracle _ 0) hrun hσ
  rcases hret with ⟨⟨⟩, hret, -⟩ | hstuck
  · refine ⟨σ', hrun, hret, log_of_ret hσ' hret, ?_⟩
    rcases hdone with ⟨-, -, hfalse⟩ | ⟨-, hprinted⟩
    · exact hfalse.elim
    · rw [← hw]
      exact hprinted
  · exact hstuck.elim

/-! ## 3. The result -/

/-- **The calls made on the adapter come to pass on the bridge, in order and each exactly once.**
The results of `socket_impl_*` are any that `socket_impl.c` can return (`Bridge.proper_of_eval`).
Neither side ever resets the link; the log is at every moment an initial piece of what is expected;
when the adapter is through it is all of it; and from every moment on the adapter can get through,
and the bridge print all of the lines. -/
theorem calls_once (hcs : ∀ c ∈ calls js, c.Proper) (hresults : ∀ n s, Proper s (oracle n s))
    (ha : a.Ready) (hb : b.Ready) (hsurplus : rx ++ fly = surplus k)
    (hrun : Runs oracle (start js a b rx fly) σ) :
    (σ.left.2.connected = true ∧ σ.right.2.g.connected = true) ∧
      σ.log <+: expected oracle 0 (calls js) ∧ σ.right.2.printed <+: lines (calls js) ∧
      (σ.left.1 = .ret () → σ.log = expected oracle 0 (calls js)) ∧
      ∃ σ', Runs oracle σ σ' ∧ σ'.left.1 = .ret () ∧
        σ'.log = expected oracle 0 (calls js) ∧ σ'.right.2.printed = lines (calls js) := by
  have hstart := start_onScript (answered_proper hresults 0 hcs) ha hb hsurplus
  obtain ⟨hadapter, hbridge, hprinted⟩ :=
    runs_connected hstart hrun ha.idle.connected ⟨hb.connected, List.nil_prefix⟩
  have hσ := runs_onScript hstart hrun
  exact ⟨⟨hadapter, hbridge⟩, log_expected hσ, hprinted, log_of_ret hσ, runs_end hσ⟩

end Run

/-- Every call succeeds, and nothing is received. -/
def quietOracle : Oracle
  | _, .open .. | _, .listen _ | _, .accept _ => true
  | _, .close _ => ()
  | _, .connect .. | _, .send .. => (0 : Int)
  | _, .recv .. => ⟨0, [], .none⟩

theorem quiet_proper (n : Nat) (s : SockCall) : Proper s (quietOracle n s) := by
  cases s with
  | connect conn addr | send conn data addr =>
    constructor <;> simp [quietOracle]
  | recv conn data addr => exact ⟨by simp [quietOracle], Int.natCast_nonneg _, Int.le_refl 0⟩
  | _ => trivial

/-- A connection is listened on, and a line printed, with two surplus handshakes under way. -/
theorem calls_once_listen : ∃ σ,
    Runs quietOracle
      (start [.call (.listen 1), .pass, .call (.debugLine [72])] { connected := true }
      { connected := true } (handshake ++ [0x99]) [0x66, 0x47, 0x42]) σ ∧
    σ.log = [.inr (.listen 1), .inl (.bool true), .inl .done] ∧ σ.right.2.printed = [[72]] := by
  have hcs : ∀ c ∈ calls [.call (.listen 1), .pass, .call (.debugLine [72])], c.Proper := by
    simp [calls, Job.call?, MobileCall.Proper]
  have hsurplus : (handshake ++ [0x99]) ++ [0x66, 0x47, 0x42] = surplus 2 := rfl
  obtain ⟨-, -, -, -, σ, hrun, -, hlog, hprinted⟩ := calls_once hcs quiet_proper
    (adapter_ready (g := {}) rfl) (bridge_ready {}) hsurplus .refl
  exact ⟨σ, hrun, hlog, hprinted⟩

end GBridge
