import Orchestrator.Holding

namespace Orchestrator
open Concurrency Async Progress
set_option autoImplicit true

namespace Progress

/-- The process is not on the way to drop a task that can still be run. A recovery has found
nothing. -/
def Calm : Progress → Prop
  | .read _ | .marked _ | .halting _ => False
  | .failed _ cls => cls ≠ .cancelled ∧ cls ≠ .base
  | _ => True

/-- The task whose `save` is under way. -/
def filing : Progress → Option Task
  | .stored t | .indexed t => some t
  | _ => none

/-- The id of the task that the process is to bring to an end or into the queue. -/
def charge (d : Progress) : Option String := d.hold.owned.map Task.taskId

theorem stage_of_charge {d : Progress} {id : String} (h : d.charge = some id) :
    d.stage = some .serving := by
  cases d with
  | gone | scanning | read _ | marked _ => cases h
  | _ => rfl

end Progress

/-- The replies of commands that raise only where a handler or a client is there to see it: no
write of a worker fails, and a stream neither runs into its limit nor ends in no `Exception`. -/
def Fair (c : Cmd Text Event) (r : c.Answer) : Prop :=
  ∀ e, r = .error e →
    match c with
    | .set .. | .delDigest _ | .setDigest .. | .acquireLock .. | .publish .. | .brpop => False
    | .iterEvents .. => e.isException = true
    | .awaitFuture .. => e.cls ≠ .timeout ∧ e.isException = true
    | _ => True

variable [TaskJson Text]

/-- What a process does with its charge in one move, if all is calm. -/
inductive Deed : Progress → (c : Cmd Text Event) → c.Answer → Progress → Prop where
  | aside {c : Cmd Text Event} {r : c.Answer} (hq : c.quiet = true)
      (hi : c.indexFree = true ∨ ∃ h, c = .delDigest h) (hc : d'.charge = d.charge)
      (hf : d' = d ∨ d'.filing = none) : Deed d c r d'
  | store (ht : t.isTerminal = false) :
      Deed .idle (.setNx t.taskId (modelDumpJson t)) r (granted r (.stored t) .idle)
  | index : Deed (.stored t) (.sadd t.projectName t.taskId) r
      (settle r (entered t) fun _ => .idle)
  | register : Deed (.indexed t) (.setDigest h t.taskId) r (.queueing t)
  | push : Deed (.queueing t) (.lpush (modelDumpJson t)) r .idle
  | pop (hx : parse x = some t) : Deed .idle .brpop (.ok (some x)) (.taken t)
  | popNothing {r : (Cmd.brpop : Cmd Text Event).Answer}
      (hr : ∀ x, r = .ok (some x) → parse x = none) : Deed .idle .brpop r .idle
  | write (hd : d.charge = some u.taskId)
      (hd' : d'.hold.owned = if u.isTerminal then none else some u) (hf : d'.filing = none) :
      Deed d (.set u.taskId (modelDumpJson u)) r d'

theorem owned_finished {u : Task} (hu : u.isTerminal = true) :
    (finished u).hold.owned = if u.isTerminal then none else some u := by
  rw [if_pos hu]
  exact finished_eq (p := fun d => d.hold.owned) rfl rfl

theorem calm_finished (u : Task) : (finished u).Calm := by
  unfold finished
  split <;> trivial

theorem filing_finished (u : Task) : (finished u).filing = none := finished_eq rfl rfl

/-- Everything that a move can be, if all is calm. -/
theorem Move.deed {S : Setup Event} {c : Cmd Text Event} {r : c.Answer} (hm : Move S d c r d')
    (hd : d.Calm) (hr : Fair c r) (hread : ∀ t, d' ≠ .read t) : Deed d c r d' ∧ d'.Calm := by
  cases hm with
  | background hc =>
    refine ⟨.aside (quiet_of_background hc) (.inl ?_) rfl (.inl rfl), hd⟩
    cases c with
    | sadd _ _ | setDigest _ _ | delDigest _ => cases hc
    | _ => rfl
  | read _ _ => exact absurd rfl (hread _)
  | mark _ _ _ | requeue _ | requeueMarked | closeHalted => exact absurd hd not_false
  | halt _ _ => exact absurd rfl hd.1
  | leave => exact absurd rfl hd.2
  | store hs hn =>
    rename_i t r
    refine ⟨.store (by rw [Task.isTerminal, hs]; rfl), ?_⟩
    rcases r with e | _ | _ <;> trivial
  | index =>
    rename_i t r
    refine ⟨.index, ?_⟩
    rcases r with e | _
    · trivial
    · show (entered t).Calm
      unfold entered
      split <;> trivial
  | register hreq =>
    rename_i r
    rcases r with e | _
    · exact absurd (hr e rfl) not_false
    · exact ⟨.register, trivial⟩
  | queue => exact ⟨.push, trivial⟩
  | pop hx => exact ⟨.pop hx, trivial⟩
  | popNothing hx => exact ⟨.popNothing hx, trivial⟩
  | acquire =>
    rename_i r
    rcases r with e | _ | _
    · exact absurd (hr e rfl) not_false
    · exact ⟨.aside rfl (.inl rfl) rfl (.inr rfl), trivial⟩
    · exact ⟨.aside rfl (.inl rfl) rfl (.inr rfl), trivial⟩
  | run hu hs =>
    rename_i r
    rcases r with e | _
    · exact absurd (hr e rfl) not_false
    · refine ⟨.write (congrArg some hu.1.1.symm) ?_ rfl, trivial⟩
      exact (if_neg (by rw [Task.isTerminal, hs]; decide)).symm
  | retry ht hu hn hs =>
    rename_i r
    rcases r with e | _
    · exact absurd (hr e rfl) not_false
    · refine ⟨.write (congrArg some hu.1.symm) ?_ rfl, trivial⟩
      exact (if_neg (by rw [Task.isTerminal, hs]; decide)).symm
  | reject hu hs | succeed hu hs | fail he hu hs | abandon ht hu hs =>
    rename_i r
    rcases r with e | _
    · exact absurd (hr e rfl) not_false
    · refine ⟨.write (congrArg some hu.1.1.symm) (owned_finished ?_) (filing_finished _),
        calm_finished _⟩
      rw [Task.isTerminal, hs]
      rfl
  | start =>
    rename_i r
    rcases r with e | _
    · exact ⟨.aside rfl (.inl rfl) rfl (.inr rfl), Exc.isException_iff.1 (hr e rfl)⟩
    · exact ⟨.aside rfl (.inl rfl) rfl (.inr rfl), trivial⟩
  | launch => exact ⟨.aside rfl (.inl rfl) rfl (.inr rfl), trivial⟩
  | wait =>
    rename_i r
    rcases r with e | _
    · obtain ⟨ht, hc⟩ := hr e rfl
      have hcut (t : Task) : cutShort t e = .failed t e.cls := if_neg ht
      refine ⟨.aside rfl (.inl rfl) ?_ (.inr ?_), ?_⟩ <;> rw [settle, hcut]
      · rfl
      · rfl
      · exact Exc.isException_iff.1 hc
    · exact ⟨.aside rfl (.inl rfl) rfl (.inr rfl), trivial⟩
  | hangUp =>
    rename_i r
    rcases r with e | _
    · exact absurd (hr e rfl) not_false
    · exact ⟨.aside rfl (.inl rfl) rfl (.inr rfl), trivial⟩
  | stolen => exact ⟨.aside rfl (.inl rfl) rfl (.inr rfl), trivial⟩
  | clear =>
    rename_i r
    rcases r with e | _
    · exact absurd (hr e rfl) not_false
    · exact ⟨.aside rfl (.inr ⟨_, rfl⟩) rfl (.inr rfl), trivial⟩
  | close => exact ⟨.aside rfl (.inl rfl) rfl (.inr rfl), trivial⟩

end Orchestrator
