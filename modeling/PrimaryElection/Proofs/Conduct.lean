import PrimaryElection.Node.Perform
import PrimaryElection.Proofs.After

namespace PrimaryElection

open HookM

theorem after_actAll_of {tell : Notice → HookM Unit} {kind : Notice.Kind} {actions : List Action}
    {I : Run → Prop} (hstep : ∀ a ∈ actions, ∀ s, I s → After (act tell kind a) s fun _ t => I t)
    {r : Run} (hr : I r) : After (actAll tell kind actions) r fun _ t => I t := by
  induction actions generalizing r with
  | nil => exact after_pure hr
  | cons a rest ih =>
    refine (hstep a List.mem_cons_self r hr).bind ?_ fun _ _ hs => hs
    exact fun _ s hs => ih (fun b hb => hstep b (List.mem_cons_of_mem _ hb)) hs

/-- `keeps` is what the listener notes for itself before it acts, `inner` answers notices meanwhile. -/
inductive Conduct
  | silent
  | answers (keeps : Notice → Run → Listener) (actions : Notice → Run → List Action)
      (inner : Notice → Run → Conduct)

namespace Conduct

def tell : Conduct → Notice → HookM Unit
  | silent, notice => hear notice
  | answers keeps actions inner, notice => do
    hear notice
    let r ← get
    modify fun r => { r with listener := keeps notice r }
    actAll (inner notice r).tell notice.kind (actions notice r)

def Only (allowed : Notice.Kind → Call → Prop) : Conduct → Prop
  | silent => True
  | answers _ actions inner => ∀ notice r,
    (∀ c caught, Action.call c caught ∈ actions notice r → allowed notice.kind c) ∧
      (inner notice r).Only allowed

theorem only_any (l : Conduct) : l.Only fun _ _ => True := by
  induction l with
  | silent => trivial
  | answers keeps actions inner ih => exact fun notice r => ⟨fun _ _ _ => trivial, ih notice r⟩

def scripted : Nat → Conduct
  | 0 => silent
  | depth + 1 => answers
      (fun notice r => { r.listener with script := (r.listener.script.next notice.kind).2 })
      (fun notice r => (r.listener.script.next notice.kind).1) (fun _ _ => scripted depth)

theorem tell_scripted (depth : Nat) : (scripted depth).tell = react depth := by
  induction depth with
  | zero => rfl
  | succ depth ih =>
    funext notice r
    simp only [scripted, tell, ih]
    rfl

end Conduct

namespace Session

def runAs {α : Type} (s : Session) (l : Conduct) (work : (Notice → HookM Unit) → HookM α) : Ended α :=
  match work l.tell ⟨s, []⟩ with
  | .ok a r => ⟨.ok a, r.toSession, r.trace⟩
  | .error e r => ⟨.error e, r.toSession, r.trace⟩

theorem run_eq_runAs {α : Type} (s : Session) (work : (Notice → HookM Unit) → HookM α) :
    s.run work = s.runAs (.scripted s.listener.script.size) work := by
  unfold runAs
  rw [Conduct.tell_scripted]
  rfl

theorem runAs_of_after {α : Type} {s : Session} {l : Conduct} (work : (Notice → HookM Unit) → HookM α)
    {Q : Except Failure α → Run → Prop} (h : After (work l.tell) ⟨s, []⟩ Q) :
    Q (s.runAs l work).result ⟨(s.runAs l work).session, (s.runAs l work).events⟩ := by
  unfold After at h
  split at h
  · rename_i a r hr
    simp only [runAs, hr]
    exact h
  · rename_i e r hr
    simp only [runAs, hr]
    exact h

/-- What calls from outside lead to: the session after them, and all that has happened. -/
inductive Course (allowed : Notice.Kind → Call → Prop) (first : Session) : Session → List Event → Prop
  | begin : Course allowed first first []
  | call {s : Session} {events : List Event} (l : Conduct) (c : Call) :
    Course allowed first s events → l.Only allowed →
      Course allowed first (s.runAs l fun tell => perform tell c).session
        (events ++ (s.runAs l fun tell => perform tell c).events)

end Session

end PrimaryElection
