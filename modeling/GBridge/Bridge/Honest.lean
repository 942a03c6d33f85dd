/-
# What `socket_impl.c` promises

The functions of `socket_impl.c` hand on what the operating system answers, and the bridge sends it
in a byte or two: `recv_cmd_sock_connect` sends an `int` as a byte, `recv_cmd_sock_send` and
`recv_cmd_sock_recv` as two.  That it fits is what the link relies on (`Proper`), and it rests on
what is documented of the calls that transfer something: `sendto` and `recvfrom` fail with -1, or
transfer no more than they were given or have room for (`OsOp.Honest`).

Nothing else of the operating system matters, so the walk through the functions keeps nothing but
the answers (`wpAns`), and `proper_of_eval` holds of every semantics that answers honestly.
-/
import GBridge.Calls

namespace GBridge.Bridge

open Prog

/-- The operating system keeps to its word. -/
def OsOp.Honest : {β : Type} → OsOp β → β → Prop
  | _, .sendto _ data _ _, rc => -1 ≤ rc ∧ rc ≤ data.length
  | _, .recvfrom _ size _, r => -1 ≤ r.len ∧ r.len ≤ size ∧ r.len ≤ r.data.length
  | _, _, _ => True

section Answers

variable {α β : Type} {Q : α → Prop} {ok : (β : Type) → OsOp β → β → Prop}

/-- Whatever an operating system answers that keeps to `ok`, this holds in the end. -/
abbrev wpAns (ok : (β : Type) → OsOp β → β → Prop) (p : OsCode α) (Q : α → Prop) : Prop :=
  wpre (Spec.demonic fun β e (_ : Unit) b _ => ok β e b) false p (fun a _ => Q a) ()

theorem wpAns_cmd {e : OsOp β} {f : β → OsCode α} (h : ∀ b, ok β e b → wpAns ok (f b) Q) :
    wpAns ok ((Prog.cmd e).bind f) Q := fun b _ hb => h b hb

theorem wpAns_bind {p : OsCode β} {f : β → OsCode α} (h : ∀ b, wpAns ok (f b) Q) :
    wpAns ok (p.bind f) Q :=
  wpre_bind.mpr (wpre_mono (fun b _ _ => h b) (wpre_true (fun _ _ _ _ _ => trivial) p ()))

theorem wpAns_ite {c : Prop} [Decidable c] {p q : OsCode α} (hp : c → wpAns ok p Q)
    (hq : ¬ c → wpAns ok q Q) : wpAns ok (if c then p else q) Q :=
  wpre_if hp hq

/-- An end of the stream is one of two results. -/
theorem wpAns_gone {sock len : Int} :
    wpAns ok (socketGone sock len) fun gone => ∀ res ∈ gone, res = -1 ∨ res = -2 := by
  refine wpAns_ite (fun _ => ?_) fun _ => wpAns_bind fun type => ?_
  · intro res hres
    cases hres
  rcases type with _ | _ | _
  · refine wpAns_bind fun _ => ?_
    intro res hres
    exact .inl (Option.some.inj hres).symm
  · intro res hres
    exact .inr (Option.some.inj hres).symm
  · intro res hres
    cases hres

/-- The same for an operating system that keeps to `ok`, whatever else there is to it. -/
theorem wpAns_eval {W : Type} {os : Sem OsOp W} {p : OsCode α} {r : α} {w w' : W}
    (hos : ∀ (β : Type) (e : OsOp β) (w : W) (b : β) (w' : W), os β e w b w' → ok β e b)
    (hp : wpAns ok p Q) (h : Eval os p w r w') : Q r := by
  let blind : W → Unit := fun _ => ()
  have hview : Eval (fun β e _ b _ => ok β e b) p (blind w) r (blind w') :=
    eval_view (fun β e w b w' => hos β e w b w') h
  exact wpre_eval (Q := fun r _ => Q r) (Spec.demonic_sound _) hp hview

end Answers

section Honest

variable {α : Type} {Q : α → Prop} {conn : Nat} {addr : Option MobileAddr}

/-- Whatever an honest operating system answers, this holds in the end. -/
abbrev wpH (p : OsCode α) (Q : α → Prop) : Prop := wpAns (fun _ e b => e.Honest b) p Q

theorem proper_connect : wpH (socketImplConnect conn addr) (Proper (.connect conn addr)) := by
  have hfits : ∀ rc : Int, -128 ≤ rc → rc < 128 → Proper (.connect conn addr) rc :=
    fun _ hlo hhi => ⟨hlo, hhi⟩
  have hfail : Proper (.connect conn addr) (-1 : Int) := hfits (-1) (by decide) (by decide)
  have hdone : Proper (.connect conn addr) (1 : Int) := hfits 1 (by decide) (by decide)
  refine wpAns_bind fun sock => wpAns_bind fun _ => wpAns_bind fun rc => ?_
  refine wpAns_ite (fun _ => hdone) fun _ => wpAns_bind fun err => ?_
  refine wpAns_ite (fun _ => wpAns_bind fun rc => ?_) fun _ =>
    wpAns_bind fun _ => wpAns_bind fun _ => hfail
  refine wpAns_ite (fun _ => hdone) fun _ => wpAns_ite (fun _ => ?_) fun _ => ?_
  · exact hfits 0 (by decide) (by decide)
  · exact wpAns_bind fun _ => wpAns_bind fun _ => wpAns_bind fun _ => hfail

theorem proper_send {data : List UInt8} (hlen : data.length < 32768) :
    wpH (socketImplSend conn data addr) (Proper (.send conn data addr)) := by
  have hfits : ∀ rc : Int, -32768 ≤ rc → rc < 32768 → Proper (.send conn data addr) rc :=
    fun _ hlo hhi => ⟨hlo, hhi⟩
  refine wpAns_bind fun sock => wpAns_bind fun _ => wpAns_cmd ?_
  rintro rc ⟨hlo, hhi⟩
  refine wpAns_ite (fun _ => wpAns_bind fun err => ?_) fun _ => hfits rc (by omega) (by omega)
  refine wpAns_ite (fun _ => ?_) fun _ => wpAns_bind fun _ => ?_
  · exact hfits 0 (by decide) (by decide)
  · exact hfits (-1) (by decide) (by decide)

/-- `socket_impl_recv` brings no more than `recvfrom`. -/
theorem proper_recv {data : Option Nat} :
    wpH (socketImplRecv conn data addr) (Proper (.recv conn data addr)) := by
  have hnone : ∀ (res : Int) (bs : List UInt8), -2 ≤ res → res ≤ 0 →
      Proper (.recv conn data addr) (.noAddr res bs addr) := by
    intro res bs hlo hhi
    have hlen : ∀ n : Nat, res ≤ n := fun n => Int.le_trans hhi (Int.natCast_nonneg n)
    exact ⟨Int.le_trans (by decide) hlo, hlen _, hlen _⟩
  have hzero := fun bs => hnone 0 bs (by decide) (by decide)
  have hfail := fun bs => hnone (-1) bs (by decide) (by decide)
  refine wpAns_bind fun sock => wpAns_bind fun _ => wpAns_bind fun rc => ?_
  refine wpAns_ite (fun _ => hzero []) fun _ => ?_
  -- what is left when `recvfrom` has answered
  have hdone : ∀ r : RecvFrom, -1 ≤ r.len →
      (data.isNone = false → r.len ≤ data.getD 0 ∧ r.len ≤ r.data.length) →
      wpH (do
        if r.len = -1 then
          if (← .cmd .geterror) = ewouldblock then return .noAddr 0 [] addr
          else
            socketPerror "recv"
            return .noAddr (-1) [] addr
        else socketImplRecvDone sock data addr r) (Proper (.recv conn data addr)) := by
    intro r hlo hlen
    refine wpAns_ite (fun _ => wpAns_bind fun err => ?_) fun _ => ?_
    · exact wpAns_ite (fun _ => hzero []) fun _ => wpAns_bind fun _ => hfail []
    refine wpre_bind.mpr (wpre_mono (fun gone _ hgone => ?_) wpAns_gone)
    cases gone with
    | some res =>
      rcases hgone res rfl with rfl | rfl
      · exact hfail _
      · exact hnone (-2) _ (by decide) (by decide)
    | none =>
      refine wpAns_ite (fun _ => hzero []) fun hsome => ?_
      obtain ⟨hsize, hdata⟩ := hlen (Bool.eq_false_of_not_eq_true hsome)
      exact ⟨Int.le_trans (by decide) hlo, hsize, hdata⟩
  cases data with
  | none => exact wpAns_cmd fun r hr => hdone r hr.1 fun h => absurd h (by decide)
  | some size => exact wpAns_cmd fun r hr => hdone r hr.1 fun _ => hr.2

/-- **What `socket_impl.c` returns fits what it is sent in.** -/
theorem proper_code (c : SockCall) (hsend : ∀ conn data addr, c = .send conn data addr →
    data.length < 32768) : wpH c.code (Proper c) := by
  cases c with
  | connect conn addr => exact proper_connect
  | send conn data addr => exact proper_send (hsend conn data addr rfl)
  | recv conn data addr => exact proper_recv
  | _ => exact wpre_true (fun _ _ _ _ _ => trivial) _ ()

/-- So it does of any operating system that is honest. -/
theorem proper_of_eval {W : Type} {os : Sem OsOp W}
    (hos : ∀ (β : Type) (e : OsOp β) (w : W) (b : β) (w' : W), os β e w b w' → e.Honest b)
    {c : SockCall} {r : c.Res} {w w' : W} (hsend : ∀ conn data addr, c = .send conn data addr →
      data.length < 32768) (h : Eval os c.code w r w') : Proper c r :=
  wpAns_eval hos (proper_code c hsend) h

end Honest

end GBridge.Bridge
