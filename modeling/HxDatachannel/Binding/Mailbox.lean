import HxDatachannel.Base.Lts
import HxDatachannel.Base.Fifo
import HxDatachannel.Binding.CallbackResult

/-!
# `Binding.Mailbox` — what the two queues are for

The purpose of `callback_results` and `datachannel_callbacks`, without threads, locks, tokens or wrappers:
a mailbox that native code posts to and the Haxe thread takes from. Its law is that nothing is lost,
duplicated or overtaken in either queue (`conserved_path`). Both models of the program refine it, the
concurrent event loop in `EventLoop.Accounting` and the program as an application sees it in
`World.Effect`, and take the law from here; the pointers of the two lists implement it (`Lists.Refine`).
-/

namespace HxDatachannel

open Lts

/-- The two queues. -/
structure Mailbox where
  announcements : Fifo DatachannelCallback
  results       : Fifo CallbackResult

inductive MailAct where
  | post (p : Post)
  | takeAnnouncement
  | takeResult
deriving DecidableEq, Repr

namespace Mailbox

def step (m : Mailbox) : MailAct → Option Mailbox
  | .post (.result r)       => some { m with results := m.results.push r }
  | .post (.announcement d) => some { m with announcements := m.announcements.push d }
  | .takeAnnouncement => m.announcements.pop.map fun out => { m with announcements := out.2 }
  | .takeResult       => m.results.pop.map fun out => { m with results := out.2 }

/-- Whatever law of conservation holds of `m` holds of `m'`. -/
def Keeps (m m' : Mailbox) : Prop :=
  (m.announcements.Conserved → m'.announcements.Conserved) ∧
  (m.results.Conserved → m'.results.Conserved)

theorem keeps_step {m m' : Mailbox} {a : MailAct} (h : m.step a = some m') : m.Keeps m' := by
  cases a with
  | post p =>
      cases p with
      | result r =>
          obtain rfl := Option.some.inj h
          exact ⟨id, fun hc => hc.push r⟩
      | announcement d =>
          obtain rfl := Option.some.inj h
          exact ⟨fun hc => hc.push d, id⟩
  | takeAnnouncement =>
      obtain ⟨out, hpop, rfl⟩ := Option.map_eq_some_iff.mp h
      exact ⟨fun hc => hc.pop hpop, id⟩
  | takeResult =>
      obtain ⟨out, hpop, rfl⟩ := Option.map_eq_some_iff.mp h
      exact ⟨id, fun hc => hc.pop hpop⟩

/-- **Both queues are conserved** along every run. -/
theorem conserved_path {m m' : Mailbox} (h : Path step Any m m') : m.Keeps m' := by
  refine h.relation (R := Keeps) (fun m => ⟨id, id⟩) ?_ (fun _ _ _ _ hstep => keeps_step hstep)
  rintro m₁ m₂ m₃ ⟨ha, hr⟩ ⟨ha', hr'⟩
  exact ⟨ha' ∘ ha, hr' ∘ hr⟩

/-! ## Short runs -/

theorem path_post (m : Mailbox) (r : CallbackResult) :
    Path step Any m { m with results := m.results.push r } :=
  Path.single (a := .post (.result r)) trivial rfl

theorem path_announce (m : Mailbox) (d : DatachannelCallback) :
    Path step Any m { m with announcements := m.announcements.push d } :=
  Path.single (a := .post (.announcement d)) trivial rfl

theorem path_takeResult {m : Mailbox} {r : CallbackResult} {q : Fifo CallbackResult}
    (h : m.results.pop = some (r, q)) : Path step Any m { m with results := q } := by
  refine Path.single (a := .takeResult) trivial ?_
  show m.results.pop.map _ = _
  rw [h]
  rfl

theorem path_takeAnnouncement {m : Mailbox} {d : DatachannelCallback}
    {q : Fifo DatachannelCallback} (h : m.announcements.pop = some (d, q)) :
    Path step Any m { m with announcements := q } := by
  refine Path.single (a := .takeAnnouncement) trivial ?_
  show m.announcements.pop.map _ = _
  rw [h]
  rfl

end Mailbox
end HxDatachannel
