import FundingTool.CrashSafety

/-!
# Programs inside programs

A program with operations of its own runs inside another one, which goes on with what it returns
and handles what it raises.  `Prog.wp_within` is the rule for it: the weakest precondition of the
inner program, for the weakest preconditions of the two ways to go on.
-/

namespace FundingTool.Interaction

variable {Op Op' : Type} {Resp : Op → Type} {Resp' : Op' → Type}
  {Err Err' α β σ χ : Type}

namespace Prog

section Within

variable (embed : Op → Op') (back : (o : Op) → Resp' (embed o) → Resp o)

/-- Run a program, its operations being some of the outer ones, and go on with its end. -/
def within (onRet : α → Prog Op' Resp' Err' β) (onRaise : Err → Prog Op' Resp' Err' β) :
    Prog Op Resp Err α → Prog Op' Resp' Err' β
  | .ret a => onRet a
  | .raise e => onRaise e
  | .call o k => .call (embed o) fun r => (k (back o r)).within onRet onRaise

/-- What the outer operations do, seen from within. -/
def inner (exec : (o : Op') → χ → σ → σ × Resp' o) (o : Op) (c : χ) (s : σ) : σ × Resp o :=
  ((exec (embed o) c s).1, back o (exec (embed o) c s).2)

end Within

/-- The two ways to go on, as one postcondition. -/
def goOn (exec : (o : Op') → χ → σ → σ × Resp' o) (Guard : σ → Op' → χ → Prop) (Crash : σ → Prop)
    (Post : σ → Except Err' β → Prop) (onRet : α → Prog Op' Resp' Err' β)
    (onRaise : Err → Prog Op' Resp' Err' β) (s : σ) : Except Err α → Prop
  | .ok a => (onRet a).wp exec Guard Crash Post s
  | .error e => (onRaise e).wp exec Guard Crash Post s

/-- **The rule for handlers.** -/
theorem wp_within {embed : Op → Op'} {back : (o : Op) → Resp' (embed o) → Resp o}
    {exec : (o : Op') → χ → σ → σ × Resp' o} {Guard : σ → Op' → χ → Prop} {Crash : σ → Prop}
    {Post : σ → Except Err' β → Prop} {onRet : α → Prog Op' Resp' Err' β}
    {onRaise : Err → Prog Op' Resp' Err' β} {p : Prog Op Resp Err α} {s : σ}
    (h : p.wp (inner embed back exec) (fun s o c => Guard s (embed o) c) Crash
      (goOn exec Guard Crash Post onRet onRaise) s) :
    (p.within embed back onRet onRaise).wp exec Guard Crash Post s := by
  induction p generalizing s with
  | ret a => exact h.2
  | raise e => exact h.2
  | call o k ih =>
      refine ⟨h.1, ?_⟩
      intro c hguard
      exact ih _ (h.2 c hguard)

end Prog

end FundingTool.Interaction
