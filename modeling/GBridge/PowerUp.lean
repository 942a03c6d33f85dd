/-
# The two programs from power-up on

`Pair` begins after the handshake.  Here both programs begin at their beginning, the adapter with
`gbridge_init` and the bridge with `main`, with noise on the line, and the bridge sends its
handshake again as often as `gbridge_handshake` times out.

A run goes through three phases, each of which says where both programs are and what is on the line
between them (`Unlinked.step`, `Up.step`):

* `Unlinked`: the adapter has not answered a handshake.  Calls made on it are refused, and the
  bridge writes handshakes;
* `Answering`: the adapter has sent its answer with `do_handshake` and plays the script of the calls
  that are left, while the bridge may still be waiting for that answer.  What the bridge writes in
  the meantime are more handshakes, and the adapter throws them away one by one when it meets them
  (`surplus`);
* `Linked`: the bridge has found the answer.  Only now is it known how many handshakes it has been,
  so the run of the pair is put together with any number of them under way, and from here on `Pair`
  applies.

How the calls divide into those refused and those carried out is settled by the moment at which the
adapter finds the handshake; `System.Settled` says what holds for a division, and
`powered_calls_once` that there is one.
-/
import GBridge.Lib.Solo
import GBridge.Lib.Turns
import GBridge.PowerUp.Adapter
import GBridge.PowerUp.Bridge

namespace GBridge

open Prog Duplex Matching
open Atmega (Result)
open Bridge (SockCall)

/-! ## 1. The system -/

/-- The system gets from one state to the other.  While the link of the bridge is down its reads may
time out or fail. -/
abbrev Powered (oracle : Oracle) : System → System → Prop :=
  PairReach (party Atmega.moves) (party (Bridge.patientMoves oracle))

/-- Both programs are at their beginning, and what is on the line is noise. -/
def powerUp (js : List Job) (a : Atmega.State) (b : Bridge.State)
    (rxL flyL rxR flyR : List UInt8) : System where
  left := (do Atmega.gbridgeInit; session js, a)
  right := (Bridge.main, { g := b })
  rxL := rxL
  flyL := flyL
  rxR := rxR
  flyR := flyR
  log := []

/-! ## 2. Noise and handshakes -/

theorem surplus_succ (k : Nat) : surplus (k + 1) = handshake ++ surplus k := by
  rw [surplus, List.replicate_succ, List.flatten_cons]
  rfl

/-- What is left over behind the first handshake are whole handshakes. -/
theorem surplus_behind {noise taken tx r rest : List UInt8} {k : Nat}
    (hnoise : Found handshake (noise ++ handshake)) (hfound : Found handshake taken)
    (heq : taken ++ rest = noise ++ tx) (htx : tx ++ r = surplus k) :
    ∃ k', rest ++ r = surplus k' := by
  have hall : taken ++ (rest ++ r) = noise ++ surplus k := by
    rw [← List.append_assoc, heq, List.append_assoc, htx]
  cases k with
  | zero =>
    -- the noise itself has no handshake in it
    have hshort : taken <+: noise := by
      rw [surplus, List.replicate_zero, List.flatten_nil, List.append_nil] at hall
      exact ⟨_, hall⟩
    have hsame := hfound.eq_of_prefix hnoise (hshort.trans (List.prefix_append _ _))
    have hle := hshort.length_le
    rw [hsame, List.length_append] at hle
    exact absurd hle (by simp [handshake])
  | succ k =>
    rw [surplus_succ] at hall
    have hsame : taken = noise ++ handshake :=
      hfound.unique hnoise ⟨_, hall⟩ ⟨surplus k, List.append_assoc ..⟩
    rw [hsame, List.append_assoc, List.append_cancel_left_eq, List.append_cancel_left_eq] at hall
    exact ⟨k, hall⟩

/-- As long as the answer is not complete it is not found. -/
theorem not_found_short {noise taken tx rest : List UInt8}
    (hnoise : Found handshake (noise ++ handshake)) (heq : taken ++ rest = noise ++ tx)
    (htx : tx <+: handshake) (hmore : tx ≠ handshake) : ¬ Found handshake taken := by
  intro hfound
  have hshort : taken <+: noise ++ tx := ⟨rest, heq⟩
  have hsame := hfound.eq_of_prefix hnoise
    (hshort.trans ((List.prefix_append_right_inj noise).mpr htx))
  rw [hsame, List.prefix_append_right_inj] at hshort
  exact hmore (htx.eq_of_length (Nat.le_antisymm htx.length_le hshort.length_le))

/-! ## 3. Stages -/

/-- The handshake has not been answered. -/
structure Unlinked (oracle : Oracle) (js : List Job) (noiseL noiseR : List UInt8)
    (u : Atmega.Rising) (taken tx : List UInt8) (σ : System) : Prop where
  adapter : u.Low oracle js σ.left
  bridge : Bridge.Low oracle σ.right taken tx
  toAdapter : u.taken ++ (σ.rxL ++ σ.flyL) = noiseL ++ tx
  toBridge : taken ++ (σ.rxR ++ σ.flyR) = noiseR ++ u.tx
  logged : σ.log = u.notes.map .inl

/-- It has been answered, with the adapter at `c` then, and the bridge has not found the answer yet:
however many handshakes it writes till then, and wherever its program stands then, the adapter has
moved as it does in the pair. -/
structure Answering (oracle : Oracle) (js₁ js₂ : List Job) (noiseR taken tx w : List UInt8)
    (log : List (Result ⊕ SockCall)) (c : Atmega.Code Unit × Atmega.State) (σ : System) : Prop where
  adapter : Atmega.Risen oracle js₂ c
  bridge : Bridge.Low oracle σ.right taken tx
  toBridge : taken ++ (σ.rxR ++ σ.flyR) = noiseR ++ (handshake ++ w)
  logged : σ.log = (refusals js₁).map .inl ++ log
  run : ∀ k r, tx ++ r = surplus k → ∃ rx fly k', rx ++ fly = surplus k' ∧
    ∀ d, Runs oracle ⟨c, d, rx, fly, [], [], []⟩ ⟨σ.left, d, σ.rxL, σ.flyL ++ r, [], w, log⟩

/-- Both are in the pair. -/
structure Linked (oracle : Oracle) (js₁ js₂ : List Job) (log : List (Result ⊕ SockCall))
    (σ₀ σ : System) : Prop where
  script : OnScript oracle (calls js₂) σ₀
  run : Runs oracle σ₀ { σ with log }
  logged : σ.log = (refusals js₁).map .inl ++ log
  up : σ.right.2.g.connected = true
  printed : σ.right.2.printed <+: lines (calls js₂)

section Step

variable {oracle : Oracle} {js js₁ js₂ : List Job}
  {noiseL noiseR taken tx w rx rx' fly : List UInt8}
  {u : Atmega.Rising} {σ σ' σ₀ : System} {log : List (Result ⊕ SockCall)}
  {c s : Atmega.Code Unit × Atmega.State} {d t : Bridge.Code Unit × Bridge.Side} {k : Nat}

/-- Where the pair begins, the script is before it. -/
theorem risen_onScript (hc : Atmega.Risen oracle js c) (hd : Bridge.Risen oracle (calls js) d)
    (hsurplus : rx ++ fly = surplus k) :
    OnScript oracle (calls js) ⟨c, d, rx, fly, [], [], []⟩ := by
  refine agrees_start rfl ?_ ?_
  · intro n
    have hpre : Atmega.LeftOver (rx ++ fly) := hsurplus ▸ leftOver_surplus k
    exact ⟨⟨c.2, 0, n, .ofScript (rx ++ fly) (script oracle 0 (calls js))⟩, rfl, rfl, Nat.le_refl n,
      hc _ _ rfl hpre rfl⟩
  · intro n
    exact ⟨⟨d.2.g, d.2.calls, d.2.printed, n,
      .ofScript [] ((script oracle 0 (calls js)).map Ev.swap)⟩, rfl, rfl, Nat.le_refl n,
      hd _ rfl rfl⟩

/-- The adapter moves, before it has answered. -/
theorem Unlinked.left {a : Act UInt8 Result} {tx' : List UInt8} {l : List Result}
    (hnoise : Found handshake (noiseL ++ handshake))
    (h : Unlinked oracle js noiseL noiseR u taken tx σ) (hm : party Atmega.moves σ.left a s)
    (he : a.Effect (σ.rxL, σ.flyR, []) (rx, tx', l)) :
    Unlinked oracle js noiseL noiseR (u.after a s.2) taken tx
        { σ with left := s, rxL := rx, flyR := tx', log := σ.log ++ l.map .inl } ∨
      ∃ js₁ js₂, js = js₁ ++ js₂ ∧ Answering oracle js₁ js₂ noiseR taken tx [] [] s
        { σ with left := s, rxL := rx, flyR := tx', log := σ.log ++ l.map .inl } := by
  obtain ⟨hrx, rfl, rfl⟩ := he.parts
  rcases h.adapter.move hm with hlow | ⟨js₁, js₂, hjs, ⟨⟨b, rfl, hall⟩, hfound, hrefused⟩, hrisen⟩
  · refine .inl ⟨hlow, h.bridge, ?_, ?_, ?_⟩
    · have htoAdapter := h.toAdapter
      rw [hrx, List.append_assoc a.takes, ← List.append_assoc u.taken] at htoAdapter
      exact htoAdapter
    · rw [Atmega.Rising.after, ← List.append_assoc noiseR, ← h.toBridge]
      simp only [List.append_assoc]
    · rw [h.logged, Atmega.Rising.after, List.map_append]
  · obtain rfl : σ.rxL = rx := hrx
    refine .inr ⟨js₁, js₂, hjs, hrisen, h.bridge, ?_, ?_, fun k r hr => ?_⟩
    · have hbytes : taken ++ (σ.rxR ++ (σ.flyR ++ [b])) = noiseR ++ (u.tx ++ [b]) := by
        rw [← List.append_assoc σ.rxR, ← List.append_assoc taken, h.toBridge, List.append_assoc]
      rw [hall, ← List.append_nil handshake] at hbytes
      exact hbytes
    · rw [h.logged, hrefused]
      rfl
    · obtain ⟨k', hk'⟩ := surplus_behind hnoise hfound h.toAdapter hr
      exact ⟨σ.rxL, σ.flyL ++ r, k', by rw [← List.append_assoc]; exact hk', fun d => .refl⟩

/-- The bridge moves, before the adapter has answered: it cannot have found an answer. -/
theorem Unlinked.right {a : Act UInt8 SockCall} {tx' : List UInt8} {l : List SockCall}
    (hnoise : Found handshake (noiseR ++ handshake))
    (h : Unlinked oracle js noiseL noiseR u taken tx σ)
    (hm : party (Bridge.patientMoves oracle) σ.right a t)
    (he : a.Effect (σ.rxR, σ.flyL, []) (rx, tx', l)) :
    Unlinked oracle js noiseL noiseR u (taken ++ a.takes) (tx ++ a.sends)
      { σ with right := t, rxR := rx, flyL := tx', log := σ.log ++ l.map .inr } := by
  obtain ⟨hrx, rfl, rfl⟩ := he.parts
  rcases h.bridge.move hm with ⟨hnoted, hlow⟩ | ⟨hlinks, -⟩
  · refine ⟨h.adapter, hlow, ?_, ?_, ?_⟩
    · have htoAdapter := h.toAdapter
      rw [← List.append_assoc noiseL, ← htoAdapter]
      simp only [List.append_assoc]
    · have htoBridge := h.toBridge
      rw [hrx, List.append_assoc a.takes, ← List.append_assoc taken] at htoBridge
      exact htoBridge
    · rw [hnoted, List.map_nil, List.append_nil]
      exact h.logged
  · exact absurd hlinks.found
      (not_found_short hnoise h.toBridge h.adapter.short.begun h.adapter.short.more)

/-- The adapter moves, and the bridge still waits for the answer. -/
theorem Answering.left {a : Act UInt8 Result} {tx' : List UInt8} {l : List Result}
    (h : Answering oracle js₁ js₂ noiseR taken tx w log c σ) (hm : party Atmega.moves σ.left a s)
    (he : a.Effect (σ.rxL, σ.flyR, []) (rx, tx', l)) :
    Answering oracle js₁ js₂ noiseR taken tx (w ++ a.sends) (log ++ l.map .inl) c
      { σ with left := s, rxL := rx, flyR := tx', log := σ.log ++ l.map .inl } := by
  obtain ⟨-, rfl, -⟩ := he.parts
  refine ⟨h.adapter, h.bridge, ?_, ?_, fun k r hr => ?_⟩
  · rw [← List.append_assoc handshake, ← List.append_assoc noiseR, ← h.toBridge]
    simp only [List.append_assoc]
  · rw [h.logged, List.append_assoc]
  · obtain ⟨rx₀, fly₀, k', hsurplus, hrun⟩ := h.run k r hr
    exact ⟨rx₀, fly₀, k', hsurplus, fun d => (hrun d).tail (.left hm (he.elsewhere w))⟩

/-- The bridge moves, and still waits for the answer, or has found it. -/
theorem Answering.right {a : Act UInt8 SockCall} {tx' : List UInt8} {l : List SockCall}
    (hnoise : Found handshake (noiseR ++ handshake)) (hcs : Answered oracle 0 (calls js₂))
    (h : Answering oracle js₁ js₂ noiseR taken tx w log c σ)
    (hm : party (Bridge.patientMoves oracle) σ.right a t)
    (he : a.Effect (σ.rxR, σ.flyL, []) (rx, tx', l)) :
    Answering oracle js₁ js₂ noiseR (taken ++ a.takes) (tx ++ a.sends) w log c
        { σ with right := t, rxR := rx, flyL := tx', log := σ.log ++ l.map .inr } ∨
      ∃ σ₀, Linked oracle js₁ js₂ log σ₀
        { σ with right := t, rxR := rx, flyL := tx', log := σ.log ++ l.map .inr } := by
  obtain ⟨hrx, rfl, rfl⟩ := he.parts
  rcases h.bridge.move hm with ⟨hnoted, hlow⟩ | ⟨hlinks, hrisen⟩
  · refine .inl ⟨h.adapter, hlow, ?_, ?_, fun k r hr => ?_⟩
    · have htoBridge := h.toBridge
      rw [hrx, List.append_assoc a.takes, ← List.append_assoc taken] at htoBridge
      exact htoBridge
    · rw [hnoted, List.map_nil, List.append_nil]
      exact h.logged
    · rw [List.append_assoc] at hr ⊢
      exact h.run k _ hr
  · obtain ⟨rfl, hup, ⟨-, hprinted⟩, hfound, k, htx⟩ := hlinks
    obtain ⟨rx₀, fly₀, k', hsurplus, hrun⟩ := h.run k [] (by rw [List.append_nil, htx])
    obtain rfl : σ.rxR = rx := hrx
    -- the handshake has been taken, and what is under way is what the adapter has sent since
    have hbytes : σ.rxR ++ σ.flyR = w := by
      have htoBridge := h.toBridge
      have hprefix : noiseR ++ handshake <+: noiseR ++ (handshake ++ w) :=
        ⟨w, List.append_assoc ..⟩
      have hsame : taken = noiseR ++ handshake := hfound.unique hnoise ⟨_, htoBridge⟩ hprefix
      rw [hsame, List.append_assoc, List.append_cancel_left_eq,
        List.append_cancel_left_eq] at htoBridge
      exact htoBridge
    refine .inr ⟨_, risen_onScript h.adapter (hrisen _ hcs) hsurplus, ?_, ?_, hup, ?_⟩
    · have harrive := reach_arriveR (P := party Atmega.moves) (R := party (Bridge.moves oracle))
        σ.left t σ.rxL (σ.flyL ++ []) σ.flyR log σ.rxR []
      rw [hbytes] at harrive
      exact (hrun t).trans harrive
    · rw [h.logged]
      simp [Act.noted]
    · rw [hprinted]
      exact List.nil_prefix

/-- A move of the adapter in the pair. -/
theorem Linked.left {a : Act UInt8 Result} {tx' : List UInt8} {l : List Result}
    (h : Linked oracle js₁ js₂ log σ₀ σ) (hm : party Atmega.moves σ.left a s)
    (he : a.Effect (σ.rxL, σ.flyR, []) (rx, tx', l)) :
    Linked oracle js₁ js₂ (log ++ l.map .inl) σ₀
      { σ with left := s, rxL := rx, flyR := tx', log := σ.log ++ l.map .inl } := by
  refine ⟨h.script, h.run.tail (.left hm he), ?_, h.up, h.printed⟩
  rw [h.logged, List.append_assoc]

/-- A move of the bridge there. -/
theorem Linked.right {a : Act UInt8 SockCall} {tx' : List UInt8} {l : List SockCall}
    (h : Linked oracle js₁ js₂ log σ₀ σ) (hm : party (Bridge.patientMoves oracle) σ.right a t)
    (he : a.Effect (σ.rxR, σ.flyL, []) (rx, tx', l)) :
    Linked oracle js₁ js₂ (log ++ l.map .inr) σ₀
      { σ with right := t, rxR := rx, flyL := tx', log := σ.log ++ l.map .inr } := by
  have hm := Bridge.party_patient hm h.up
  obtain ⟨-, early, inp, out, hplaying⟩ := agrees_parts (runs_onScript h.script h.run)
  obtain ⟨hup, hprinted⟩ := Bridge.stays_connected hplaying hm ⟨h.up, h.printed⟩
  refine ⟨h.script, h.run.tail (.right hm he), ?_, hup, hprinted⟩
  rw [h.logged, List.append_assoc]

/-- The handshake has been answered. -/
def Up (oracle : Oracle) (js₁ js₂ : List Job) (noiseR : List UInt8) (σ : System) : Prop :=
  (∃ taken tx w log c, Answering oracle js₁ js₂ noiseR taken tx w log c σ) ∨
    ∃ log σ₀, Linked oracle js₁ js₂ log σ₀ σ

/-- A step of the pair. -/
theorem Linked.step (h : Linked oracle js₁ js₂ log σ₀ σ)
    (hs : PairStep (party Atmega.moves) (party (Bridge.patientMoves oracle)) σ σ') :
    ∃ log', Linked oracle js₁ js₂ log' σ₀ σ' := by
  cases hs with
  | left hm he => exact ⟨_, h.left hm he⟩
  | right hm he => exact ⟨_, h.right hm he⟩
  | arriveL hfly => exact ⟨_, h.script, h.run.tail (.arriveL hfly), h.logged, h.up, h.printed⟩
  | arriveR hfly => exact ⟨_, h.script, h.run.tail (.arriveR hfly), h.logged, h.up, h.printed⟩

/-- **A step of the system**, before the handshake has been answered. -/
theorem Unlinked.step (hL : Found handshake (noiseL ++ handshake))
    (hR : Found handshake (noiseR ++ handshake))
    (h : Unlinked oracle js noiseL noiseR u taken tx σ)
    (hs : PairStep (party Atmega.moves) (party (Bridge.patientMoves oracle)) σ σ') :
    (∃ u taken tx, Unlinked oracle js noiseL noiseR u taken tx σ') ∨
      ∃ js₁ js₂, js = js₁ ++ js₂ ∧ Up oracle js₁ js₂ noiseR σ' := by
  cases hs with
  | left hm he =>
    rcases h.left hL hm he with h' | ⟨js₁, js₂, hjs, h'⟩
    · exact .inl ⟨_, _, _, h'⟩
    · exact .inr ⟨js₁, js₂, hjs, .inl ⟨_, _, _, _, _, h'⟩⟩
  | right hm he => exact .inl ⟨_, _, _, h.right hR hm he⟩
  | arriveL hfly =>
    refine .inl ⟨u, taken, tx, h.adapter, h.bridge, ?_, h.toBridge, h.logged⟩
    rw [← h.toAdapter, hfly, List.append_assoc, List.singleton_append]
  | arriveR hfly =>
    refine .inl ⟨u, taken, tx, h.adapter, h.bridge, h.toAdapter, ?_, h.logged⟩
    rw [← h.toBridge, hfly, List.append_assoc, List.singleton_append]

/-- **A step of the system**, when it has been. -/
theorem Up.step (hR : Found handshake (noiseR ++ handshake)) (hcs : Answered oracle 0 (calls js₂))
    (h : Up oracle js₁ js₂ noiseR σ)
    (hs : PairStep (party Atmega.moves) (party (Bridge.patientMoves oracle)) σ σ') :
    Up oracle js₁ js₂ noiseR σ' := by
  rcases h with ⟨taken, tx, w, log, c, h⟩ | ⟨log, σ₀, h⟩
  · cases hs with
    | left hm he => exact .inl ⟨_, _, _, _, _, h.left hm he⟩
    | right hm he =>
      rcases h.right hR hcs hm he with h' | ⟨σ₀, h'⟩
      · exact .inl ⟨_, _, _, _, _, h'⟩
      · exact .inr ⟨_, _, h'⟩
    | arriveL hfly =>
      refine .inl ⟨_, _, _, _, _, h.adapter, h.bridge, h.toBridge, h.logged, fun k r hr => ?_⟩
      obtain ⟨rx₀, fly₀, k', hsurplus, hrun⟩ := h.run k r hr
      refine ⟨rx₀, fly₀, k', hsurplus, fun d => (hrun d).tail (.arriveL ?_)⟩
      rw [hfly, List.cons_append]
    | arriveR hfly =>
      refine .inl ⟨_, _, _, _, _, h.adapter, h.bridge, ?_, h.logged, h.run⟩
      rw [← h.toBridge, hfly, List.append_assoc, List.singleton_append]
  · obtain ⟨log', h'⟩ := h.step hs
    exact .inr ⟨log', σ₀, h'⟩

/-- The loop of `main` plays the script. -/
theorem risen_mainLoop {cs : List MobileCall} (hcs : Answered oracle 0 cs) :
    Bridge.Risen oracle cs (Bridge.mainLoop, { g := { connected := true } }) := by
  intro v hside hshare
  have hg : v.g = { connected := true } := congrArg Bridge.Side.g hside
  have hcalls : v.calls = 0 := congrArg Bridge.Side.calls hside
  have hprinted : v.printed = [] := congrArg Bridge.Side.printed hside
  rw [← hcalls] at hcs hshare
  exact wpB_mainLoop ⟨hg ▸ ⟨rfl, rfl, rfl⟩, by rw [hprinted]; rfl, hcs, hshare⟩

/-- What the adapter has done since is what it does in the pair. -/
theorem Up.seen (hcs : Answered oracle 0 (calls js₂)) (h : Up oracle js₁ js₂ noiseR σ) :
    ∃ σ₁, OnScript oracle (calls js₂) σ₁ ∧ σ₁.left = σ.left ∧
      σ.log = (refusals js₁).map .inl ++ σ₁.log := by
  rcases h with ⟨taken, tx, w, log, c, h⟩ | ⟨log, σ₀, h⟩
  · obtain ⟨k, r, hr⟩ := h.bridge.short.written
    obtain ⟨rx₀, fly₀, k', hsurplus, hrun⟩ := h.run k r hr
    exact ⟨_, runs_onScript (risen_onScript h.adapter (risen_mainLoop hcs) hsurplus) (hrun _), rfl,
      h.logged⟩
  · exact ⟨_, runs_onScript h.script h.run, rfl, h.logged⟩

end Step

/-! ## 4. Every run -/

section Run

variable {oracle : Oracle} {js js₁ js₂ : List Job} {a : Atmega.State} {b : Bridge.State}
  {rxL flyL rxR flyR noiseL noiseR : List UInt8} {σ σ' : System}

/-- At power-up nothing has been answered. -/
theorem powerUp_unlinked (hcs : ∀ c ∈ calls js, c.Proper) (ho : ∀ n s, Proper s (oracle n s))
    (ha : a.connected = false) (hroom : a.dataBuf.length = maxDataSize) (hb : b.connected = false) :
    Unlinked oracle js (rxL ++ flyL) (rxR ++ flyR) ⟨a, [], [], []⟩ [] []
      (powerUp js a b rxL flyL rxR flyR) := by
  have hsession : js = [] ++ js := rfl
  refine ⟨⟨rfl, ⟨ha, List.nil_prefix, (List.cons_ne_nil _ _).symm, [], List.nil_prefix, rfl⟩, ?_⟩,
    ⟨⟨hb, ⟨rfl, rfl⟩, 0, List.prefix_refl _⟩, fun cs hcs n => ⟨n, Nat.le_refl n, ?_⟩⟩,
    (List.append_nil _).symm, (List.append_nil _).symm, rfl⟩
  · refine Atmega.wpR_bind (Atmega.wpR_modify rfl (Atmega.wpR_session hcs ho hsession rfl ?_))
    exact ⟨rfl, searching_nil (by decide), rfl, adapter_ready hroom⟩
  · exact Bridge.wpR_main hcs rfl rfl ⟨rfl, rfl⟩

theorem answered_of_mem (hjs : js = js₁ ++ js₂) (hcs : ∀ c ∈ calls js, c.Proper)
    (ho : ∀ n s, Proper s (oracle n s)) : Answered oracle 0 (calls js₂) := by
  refine answered_proper ho 0 fun c hc => hcs c ?_
  rw [hjs, calls, List.filterMap_append]
  exact List.mem_append_right _ hc

/-- When the handshake has been answered, it stays so. -/
theorem Up.reach (hR : Found handshake (noiseR ++ handshake)) (hcs : Answered oracle 0 (calls js₂))
    (h : Up oracle js₁ js₂ noiseR σ) (hrun : Powered oracle σ σ') :
    Up oracle js₁ js₂ noiseR σ' := by
  induction hrun with
  | refl => exact h
  | tail _ hs ih => exact ih.step hR hcs hs

theorem Unlinked.reach {u : Atmega.Rising} {taken tx : List UInt8}
    (hL : Found handshake (noiseL ++ handshake)) (hR : Found handshake (noiseR ++ handshake))
    (hcs : ∀ c ∈ calls js, c.Proper) (ho : ∀ n s, Proper s (oracle n s))
    (h : Unlinked oracle js noiseL noiseR u taken tx σ) (hrun : Powered oracle σ σ') :
    (∃ u taken tx, Unlinked oracle js noiseL noiseR u taken tx σ') ∨
      ∃ js₁ js₂, js = js₁ ++ js₂ ∧ Up oracle js₁ js₂ noiseR σ' := by
  induction hrun with
  | refl => exact .inl ⟨u, taken, tx, h⟩
  | tail _ hs ih =>
    rcases ih with ⟨u', taken', tx', h'⟩ | ⟨js₁, js₂, hjs, h'⟩
    · exact h'.step hL hR hs
    · exact .inr ⟨js₁, js₂, hjs, h'.step hR (answered_of_mem hjs hcs ho) hs⟩

/-- The adapter does not reset the link. -/
theorem Up.stays (hR : Found handshake (noiseR ++ handshake)) (hcs : Answered oracle 0 (calls js₂))
    (h : Up oracle js₁ js₂ noiseR σ) (hrun : Powered oracle σ σ')
    (hup : σ.left.2.connected = true) : σ'.left.2.connected = true := by
  induction hrun with
  | refl => exact hup
  | @tail σ₁ σ₂ hbefore hs ih =>
    cases hs with
    | left hm _ =>
      obtain ⟨σ₁, hscript, hleft, -⟩ := (h.reach hR hcs hbefore).seen hcs
      obtain ⟨⟨early, inp, out, hplaying⟩, -⟩ := agrees_parts hscript
      rw [hleft] at hplaying
      exact Atmega.stays_connected hplaying hm ih
    | right _ _ | arriveL _ | arriveR _ => exact ih

/-! ## 5. The result -/

/-- What has come of the calls, if those of `js₁` came before the link was up and those of `js₂`
come after. -/
structure System.Settled (oracle : Oracle) (js₁ js₂ : List Job) (σ : System) : Prop where
  refused : (refusals js₁).map .inl <+: σ.log
  order : σ.log <+: (refusals js₁).map .inl ++ expected oracle 0 (calls js₂)
  finished : σ.left.1 = .ret () →
    σ.log = (refusals js₁).map .inl ++ expected oracle 0 (calls js₂)
  printed : σ.right.2.printed <+: lines (calls js₂)
  untouched : σ.right.2.g.connected = false → σ.right.2.calls = 0 ∧ σ.right.2.printed = []

theorem Up.settled (hcs : Answered oracle 0 (calls js₂)) (h : Up oracle js₁ js₂ noiseR σ) :
    σ.Settled oracle js₁ js₂ := by
  obtain ⟨σ₁, hscript, hleft, hlog⟩ := h.seen hcs
  refine ⟨⟨σ₁.log, hlog.symm⟩, ?_, fun hret => ?_, ?_, fun hdown => ?_⟩
  · rw [hlog]
    exact (List.prefix_append_right_inj _).mpr (log_expected hscript)
  · rw [hlog, log_of_ret hscript (by rw [hleft]; exact hret)]
  · rcases h with ⟨_, _, _, _, _, h⟩ | ⟨_, _, h⟩
    · rw [h.bridge.short.fresh.2]
      exact List.nil_prefix
    · exact h.printed
  · rcases h with ⟨_, _, _, _, _, h⟩ | ⟨_, _, h⟩
    · exact h.bridge.short.fresh
    · exact absurd (h.up.symm.trans hdown) (by decide)

/-- Before the handshake has been answered every call is refused. -/
theorem Unlinked.settled {u : Atmega.Rising} {taken tx : List UInt8}
    (h : Unlinked oracle js noiseL noiseR u taken tx σ) :
    ∃ js₁ js₂, js = js₁ ++ js₂ ∧ σ.Settled oracle js₁ js₂ := by
  obtain ⟨js₁, hjs, hnotes, hdone⟩ : ∃ js₁, js₁ <+: js ∧ u.notes = refusals js₁ ∧
      (σ.left.1 = .ret () → js₁ = js) := by
    by_cases hret : σ.left.1 = .ret ()
    · have hawaits := h.adapter.awaits
      rw [hret] at hawaits
      exact ⟨js, List.prefix_refl _, hawaits, fun _ => rfl⟩
    · obtain ⟨js₁, hjs, hnotes⟩ := h.adapter.short.refused
      exact ⟨js₁, hjs, hnotes, fun hret' => absurd hret' hret⟩
  obtain ⟨js₂, hjs⟩ := hjs
  have hlog : σ.log = (refusals js₁).map .inl := by rw [h.logged, hnotes]
  have hfresh := h.bridge.short.fresh
  refine ⟨js₁, js₂, hjs.symm, hlog ▸ List.prefix_refl _, hlog ▸ List.prefix_append _ _,
    fun hret => ?_, hfresh.2 ▸ List.nil_prefix, fun _ => hfresh⟩
  obtain rfl : js₂ = [] := List.self_eq_append_right.mp ((hdone hret).trans hjs.symm)
  rw [hlog]
  exact (List.append_nil _).symm

theorem Linked.reach {log : List (Result ⊕ SockCall)} {σ₀ : System}
    (h : Linked oracle js₁ js₂ log σ₀ σ) (hrun : Powered oracle σ σ') :
    ∃ log', Linked oracle js₁ js₂ log' σ₀ σ' := by
  induction hrun with
  | refl => exact ⟨log, h⟩
  | tail _ hs ih =>
    obtain ⟨log', h'⟩ := ih
    exact h'.step hs

/-- From where the bridge has found the answer, the calls still to be made can all come to pass. -/
theorem Linked.ends {log : List (Result ⊕ SockCall)} {σ₀ : System}
    (h : Linked oracle js₁ js₂ log σ₀ σ) : ∃ σ', Powered oracle σ σ' ∧ σ'.left.1 = .ret () ∧
      σ'.log = (refusals js₁).map .inl ++ expected oracle 0 (calls js₂) ∧
        σ'.right.2.printed = lines (calls js₂) := by
  obtain ⟨σ', hrun, hret, hlog, hprinted⟩ := runs_end (runs_onScript h.script h.run)
  have hpowered := reach_behind (Q := party Atmega.moves) (O := party (Bridge.patientMoves oracle))
    (fun hm => hm) Bridge.patient_party ((refusals js₁).map .inl) hrun
  rw [← h.logged] at hpowered
  exact ⟨_, hpowered, hret, congrArg _ hlog, hprinted⟩

/-- **From power-up on, what is called before the link is up is refused, and what is called
afterwards comes to pass on the bridge, in order and each exactly once**, however often the bridge
sends its handshake and whatever noise comes before it.

Which calls these are is settled when the link of the adapter is up; no link that is up goes down
again, and the bridge calls nothing and prints nothing before its own is.  From then on the adapter
can get through.

As in `Pair` the calls are within the bounds of `MobileCall.Proper`: a `mobile_impl_sock_recv` of
more than 255 bytes, for one, may take the link down.  What the calls of `socket_impl.c` return is
`Proper` too, and on either side nothing times out once its link is up (`Powered`). -/
theorem powered_calls_once (hcs : ∀ c ∈ calls js, c.Proper) (ho : ∀ n s, Proper s (oracle n s))
    (ha : a.connected = false) (hroom : a.dataBuf.length = maxDataSize) (hb : b.connected = false)
    (hL : Found handshake ((rxL ++ flyL) ++ handshake))
    (hR : Found handshake ((rxR ++ flyR) ++ handshake))
    (hrun : Powered oracle (powerUp js a b rxL flyL rxR flyR) σ) :
    ∃ js₁ js₂, js = js₁ ++ js₂ ∧ σ.Settled oracle js₁ js₂ ∧
      (σ.left.2.connected = true → ∀ σ', Powered oracle σ σ' →
        σ'.left.2.connected = true ∧ σ'.Settled oracle js₁ js₂) ∧
      (σ.right.2.g.connected = true →
        (∀ σ', Powered oracle σ σ' → σ'.right.2.g.connected = true) ∧
        ∃ σ', Powered oracle σ σ' ∧ σ'.left.1 = .ret () ∧
          σ'.log = (refusals js₁).map .inl ++ expected oracle 0 (calls js₂) ∧
            σ'.right.2.printed = lines (calls js₂)) := by
  have hstart : Unlinked oracle js (rxL ++ flyL) (rxR ++ flyR) ⟨a, [], [], []⟩ [] []
      (powerUp js a b rxL flyL rxR flyR) := powerUp_unlinked hcs ho ha hroom hb
  rcases hstart.reach hL hR hcs ho hrun with ⟨u, taken, tx, h⟩ | ⟨js₁, js₂, hjs, h⟩
  · obtain ⟨js₁, js₂, hjs, hsettled⟩ := h.settled
    have hdown : σ.left.2.connected = false := h.adapter.g ▸ h.adapter.short.down
    refine ⟨js₁, js₂, hjs, hsettled, fun hup => ?_, fun hup => ?_⟩
    · exact absurd (hup.symm.trans hdown) (by decide)
    · exact absurd (hup.symm.trans h.bridge.short.down) (by decide)
  · have hanswered := answered_of_mem hjs hcs ho
    refine ⟨js₁, js₂, hjs, h.settled hanswered, fun hup σ' hrun' => ?_, fun hup => ?_⟩
    · exact ⟨h.stays hR hanswered hrun' hup, (h.reach hR hanswered hrun').settled hanswered⟩
    · rcases h with ⟨_, _, _, _, _, h⟩ | ⟨log, σ₀, h⟩
      · exact absurd (hup.symm.trans h.bridge.short.down) (by decide)
      · refine ⟨fun σ' hrun' => ?_, h.ends⟩
        obtain ⟨log', h'⟩ := h.reach hrun'
        exact h'.up

end Run

/-! ## 6. A run that is computed -/

/-- What an operation of the adapter does on its turn. -/
def adapterAnswers : Answers Atmega.Op Atmega.State UInt8 Result
  | _, .get, g, _ => some (.tau, .inl g, g)
  | _, .set g₁, _, _ => some (.tau, .inl (), g₁)
  | _, .storeData i c, g, _ => some (.tau, .inl (), g.storeData i c)
  | _, .storeStream i c, g, _ => some (.tau, .inl (), g.storeStream i c)
  | _, .available, g, rx => some (.poll rx.length, .inl rx.length, g)
  | _, .getchar, g, rx => rx.head?.map fun c => (.recv [c], .inl c, g)
  | _, .putchar c, g, _ => some (.send c, .inl (), g)
  | _, .timerGet, g, _ => some (.tau, .inl 0, g)
  | _, .expired _, g, _ => some (.tau, .inl false, g)
  | _, .returned r, g, _ => some (.note r, .inl (), g)

/-- What one of the bridge does: a read that finds nothing times out. -/
def bridgeAnswers (oracle : Oracle) : Answers Bridge.Op Bridge.Side UInt8 SockCall
  | _, .get, x, _ => some (.tau, .inl x.g, x)
  | _, .set g, x, _ => some (.tau, .inl (), { x with g })
  | _, .read count _, x, rx =>
    if rx.length < count then
      if x.g.connected = false then some (.tau, .inl (.bytes []), x) else none
    else some (.recv (rx.take count), .inl (.bytes (rx.take count)), x)
  | _, .store dst bs, x, _ => some (.tau, .inl (), { x with g := x.g.store bs dst })
  | _, .write [], x, _ => some (.tau, .inl (), x)
  | _, .write (b :: bs), x, _ => some (.send b, .inr (.write bs), x)
  | _, .eprint _, x, _ => some (.tau, .inl (), x)
  | _, .ewrite bs, x, _ => some (.tau, .inl (), { x with printed := x.printed ++ [bs] })
  | _, .sock c, x, _ =>
    some (.note c, .inl (oracle x.calls c), { x with calls := x.calls + 1 })

theorem adapterAnswers_moves {γ : Type} {e : Atmega.Op γ} {g g' : Atmega.State} {rx : List UInt8}
    {a : Act UInt8 Result} {r : γ ⊕ Atmega.Op γ} (h : adapterAnswers γ e g rx = some (a, r, g')) :
    Atmega.moves γ e g a r g' := by
  cases e with
  | available =>
    cases h
    exact ⟨_, rfl, rfl, rfl⟩
  | getchar =>
    obtain ⟨c, -, heq⟩ := Option.map_eq_some_iff.mp h
    cases heq
    exact ⟨c, rfl, rfl, rfl⟩
  | timerGet =>
    cases h
    exact ⟨rfl, ⟨0, rfl⟩, rfl⟩
  | _ =>
    cases h
    exact ⟨rfl, rfl, rfl⟩

theorem bridgeAnswers_moves {oracle : Oracle} {γ : Type} {e : Bridge.Op γ} {x x' : Bridge.Side}
    {rx : List UInt8} {a : Act UInt8 SockCall} {r : γ ⊕ Bridge.Op γ}
    (h : bridgeAnswers oracle γ e x rx = some (a, r, x')) :
    Bridge.patientMoves oracle γ e x a r x' := by
  cases e with
  | read count ms =>
    rw [bridgeAnswers] at h
    split at h
    · obtain ⟨hdown, heq⟩ := Option.ite_none_right_eq_some.mp h
      cases heq
      exact .inr ⟨hdown, rfl, ⟨.bytes [], rfl, rfl⟩, rfl⟩
    · cases h
      have hlen : (rx.take count).length = count :=
        List.length_take_of_le (Nat.le_of_not_lt ‹_›)
      exact .inl ⟨_, rfl, rfl, Nat.le_of_eq hlen, fun _ => hlen, rfl⟩
  | write bs =>
    cases bs with
    | nil =>
      cases h
      exact ⟨rfl, rfl, rfl⟩
    | cons b bs =>
      cases h
      exact ⟨rfl, rfl, rfl⟩
  | _ =>
    cases h
    exact ⟨rfl, rfl, rfl⟩

/-- One connection is listened on, at once and when some passes have been made. -/
def insisting : List Job :=
  .call (.listen 1) :: (List.replicate 12 .pass ++ [.call (.listen 1)])

/-- Turn by turn from power-up, with noise before either handshake. -/
def played (ts : List Whose) : System :=
  (powerUp insisting {} {} [] [0x99] [0x51] []).turns (planned adapterAnswers)
    (planned (bridgeAnswers quietOracle)) ts

theorem played_reach (ts : List Whose) :
    Powered quietOracle (powerUp insisting {} {} [] [0x99] [0x51] []) (played ts) :=
  turns_reach (planned_party adapterAnswers_moves) (planned_party bridgeAnswers_moves) ts _

/-- The bridge writes its handshake a few times, and what the adapter answers is found. -/
def linking : List Whose :=
  List.replicate 40 .right ++ List.replicate 12 .arriveL ++ List.replicate 120 .left ++
    List.replicate 4 .arriveR ++ List.replicate 60 .right

/-- The first call is refused, and the second one comes to pass. -/
theorem powered_calls_once_listen : ∃ σ,
    Powered quietOracle (powerUp insisting {} {} [] [0x99] [0x51] []) σ ∧ σ.left.1 = .ret () ∧
      σ.log = [.inl (.bool false), .inr (.listen 1), .inl (.bool true)] := by
  have hcs : ∀ c ∈ calls insisting, c.Proper := by
    simp [insisting, calls, Job.call?, MobileCall.Proper]
  have hseen : ((played linking).right.2.g.connected, (played linking).log.map Sum.isLeft) =
      (true, [true]) := by
    decide +kernel
  obtain ⟨hup, hlog⟩ := Prod.mk.inj hseen
  obtain ⟨js₁, js₂, hjs, hsettled, -, hends⟩ := powered_calls_once hcs quiet_proper rfl rfl rfl
    ⟨by decide, by decide⟩ ⟨by decide, by decide⟩ (played_reach linking)
  obtain ⟨-, σ, hrun, hret, hall, -⟩ := hends hup
  refine ⟨σ, (played_reach linking).trans hrun, hret, hall.trans ?_⟩
  have hsplit : calls js₁ ++ calls js₂ = [.listen 1, .listen 1] := by
    rw [calls, calls, ← List.filterMap_append, ← hjs]
    rfl
  obtain ⟨x, hx, hleft⟩ := List.map_eq_singleton_iff.mp hlog
  have hrefused := hsettled.refused.length_le
  have horder := hsettled.order
  rw [hx] at hrefused horder
  rw [refusals] at hrefused horder ⊢
  -- the one result there has been is that of the first call
  rcases hcalls : calls js₁ with _ | ⟨c, _ | ⟨c', cs⟩⟩
  · rw [hcalls] at hsplit horder
    have hnone : calls js₂ = [.listen 1, .listen 1] := hsplit
    rw [hnone] at horder
    obtain ⟨rfl, -⟩ := List.cons_prefix_cons.mp horder
    cases hleft
  · rw [hcalls] at hsplit
    obtain ⟨rfl, hsecond⟩ := List.cons.inj hsplit
    have hone : calls js₂ = [.listen 1] := hsecond
    rw [hone]
    rfl
  · rw [hcalls] at hrefused
    simp at hrefused

end GBridge
