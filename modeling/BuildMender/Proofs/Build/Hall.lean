import BuildMender.Build.Session
import BuildMender.Proofs.Build.Race
import Mathlib.Algebra.Group.Nat.Defs

/-!
# Many callers at one desk

Whoever wants a build draws a ticket, comes to the desk with it, and if it is accepted there, starts a process,
watches it until it has been waited for, and leaves the desk. Many callers do this at once, and anybody may
cancel the build that holds the desk at any time; nobody fixes the order in which all this happens. A `Hall` is
the desk with all callers at one moment, and `Hall.Step` is what can happen next. The watch over a process goes
on in small steps of its own (`BuildMender.Race.Step`) between those of the others; what happens at the desk is
one step.

What every step keeps is `BuildMender.Hall.Sound`: whoever is active, that is accepted and neither cancelled nor
gone, holds the desk, and if the desk is held, somebody active holds it. The point is a caller who was cancelled.
It is still inside while others come and go, and when it leaves, the number on its ticket is what keeps it from
taking the desk from another (`BuildMender.Hall.desk_follows_callers`).

So only one caller is active at a time. That is not to say that only one process is alive: one that was
cancelled may be killed and waited for when the next has long been started. How many processes can be alive
together, and when it is only one, is `BuildMender.Hall.alive_together`.
-/

namespace BuildMender

/-! ### Callers -/

/-- How far a caller has come. -/
inductive Caller.Stage where
  /-- A ticket was drawn. -/
  | coming
  | refused (e : BuildError)
  /-- The ticket was accepted, and no process has been started. -/
  | accepted
  /-- The process could not be started, for a reason. -/
  | unstarted (reason : Text)
  /-- The process was started, and races with its end. -/
  | started (race : Race)
  /-- The desk was left, when this had been heard of the process. -/
  | gone (heard : Except Text (List Signal))

/-- Somebody who asked for a build. -/
structure Caller where
  ticket : Ticket
  command : Text
  stage : Caller.Stage := .coming
  /-- Whether the build was cancelled. -/
  cancelled : Bool := false

namespace Caller

variable {timeout : Nat} {c : Caller}

/-- A caller that was accepted and has not left the desk. -/
def inside (c : Caller) : Bool :=
  match c.stage with
  | .accepted | .unstarted _ | .started _ => true
  | .coming | .refused _ | .gone _ => false

/-- A caller that was accepted and has neither left the desk nor been cancelled. -/
def Active (c : Caller) : Prop := c.inside = true ∧ c.cancelled = false

/-- The process of a caller is alive: it was started and has not been waited for. -/
def Alive (timeout : Nat) (c : Caller) : Prop :=
  ∃ r, c.stage = .started r ∧ (r.watch timeout).status = none ∧ ¬r.Over timeout

/-- A caller's build has come to its end, with what was heard of the process. -/
inductive Ends (timeout : Nat) (c : Caller) : Except Text (List Signal) → Prop where
  | unstarted (reason : Text) (h : c.stage = .unstarted reason) : Ends timeout c (.error reason)
  | watched (r : Race) (h : c.stage = .started r) (hover : r.Over timeout) : Ends timeout c (.ok r.heard)

/-- A caller who hears that the build was cancelled, from the watch if there is one. -/
def callOff (c : Caller) : Caller :=
  { c with
    cancelled := true
    stage := match c.stage with
      | .started r => .started { r with cancelled := true }
      | stage => stage }

theorem Alive.inside (h : c.Alive timeout) : c.inside = true := by
  obtain ⟨r, hr, -⟩ := h
  rw [Caller.inside, hr]

theorem Ends.inside {heard : Except Text (List Signal)} (h : c.Ends timeout heard) : c.inside = true := by
  cases h with
  | unstarted reason h => rw [Caller.inside, h]
  | watched r h _ => rw [Caller.inside, h]

theorem alive_started {cancelled : Bool} (h : c.stage = .started { cancelled := cancelled }) :
    c.Alive timeout := by
  refine ⟨_, h, rfl, ?_⟩
  rintro (h | ⟨h | h, -⟩) <;> cases h

/-- A process does not notice that its build was cancelled. -/
theorem Alive.callOff (h : c.Alive timeout) : c.callOff.Alive timeout := by
  obtain ⟨r, hr, hstatus, hover⟩ := h
  refine ⟨{ r with cancelled := true }, ?_, hstatus, hover⟩
  rw [Caller.callOff, hr]

theorem inside_callOff (c : Caller) : c.callOff.inside = c.inside := by
  rw [inside, inside, callOff]
  cases c.stage <;> rfl

end Caller

/-! ### The hall -/

/-- The desk and all who have drawn a ticket, in the order in which they drew them. -/
structure Hall where
  desk : Desk := {}
  callers : List Caller := []

namespace Hall

variable {timeout : Nat} {s s' : Hall} {desk : Desk} {i j : Nat} {c d : Caller}

/-- A caller who has come further, and the desk as it is then. -/
def put (s : Hall) (desk : Desk) (i : Nat) (c : Caller) : Hall := { desk := desk, callers := s.callers.set i c }

/-- A new caller draws a ticket. -/
def ask (s : Hall) (preset : Text) (action : BuildAction) (command : Text) : Hall :=
  let (ticket, desk) := s.desk.draw preset action
  { desk := desk, callers := s.callers ++ [{ ticket := ticket, command := command }] }

/-- **A caller comes to the desk**, and is accepted or refused. -/
def come (s : Hall) (i : Nat) (c : Caller) : Hall :=
  match s.desk.accept c.ticket with
  | .error e => s.put s.desk i { c with stage := .refused e }
  | .ok desk => s.put desk i { c with stage := .accepted }

/-- **A caller leaves the desk.** -/
def leave (s : Hall) (i : Nat) (c : Caller) (heard : Except Text (List Signal)) : Hall :=
  s.put (s.desk.leave c.ticket) i { c with stage := .gone heard }

/-- **The build that holds the desk is cancelled**, if there is one. -/
def cancel (s : Hall) : Hall :=
  match s.desk.cancel with
  | (none, desk) => { s with desk := desk }
  | (some t, desk) =>
    { desk := desk, callers := s.callers.map fun c => if c.ticket = t then c.callOff else c }

/-- **What can happen next.** -/
inductive Step (timeout : Nat) : Hall → Hall → Prop where
  | ask (s : Hall) (preset : Preset) (action : BuildAction) (command : Text)
      (h : Builder.commandOf preset action = .ok command) : Step timeout s (s.ask preset.id action command)
  /-- Whoever has no command for the action draws no ticket. -/
  | turnAway (s : Hall) (preset : Preset) (action : BuildAction) (e : BuildError)
      (h : Builder.commandOf preset action = .error e) : Step timeout s s
  | come (s : Hall) (i : Nat) (c : Caller) (hc : s.callers[i]? = some c) (h : c.stage = .coming) :
      Step timeout s (s.come i c)
  /-- A process is started, even if the build has been cancelled meanwhile. -/
  | start (s : Hall) (i : Nat) (c : Caller) (line : CommandLine) (hc : s.callers[i]? = some c)
      (h : c.stage = .accepted) (hline : CommandLine.parse c.command = some line) :
      Step timeout s (s.put s.desk i { c with stage := .started { cancelled := c.cancelled } })
  /-- A process cannot be started. -/
  | fail (s : Hall) (i : Nat) (c : Caller) (reason : Text) (hc : s.callers[i]? = some c)
      (h : c.stage = .accepted) : Step timeout s (s.put s.desk i { c with stage := .unstarted reason })
  /-- A process or its watch goes on, but for being cancelled, which is decided at the desk. -/
  | race (s : Hall) (i : Nat) (c : Caller) (r r' : Race) (hc : s.callers[i]? = some c)
      (h : c.stage = .started r) (hstep : Race.Step timeout r r') (hkept : r'.cancelled = r.cancelled) :
      Step timeout s (s.put s.desk i { c with stage := .started r' })
  | leave (s : Hall) (i : Nat) (c : Caller) (heard : Except Text (List Signal)) (hc : s.callers[i]? = some c)
      (h : c.Ends timeout heard) : Step timeout s (s.leave i c heard)
  | cancel (s : Hall) : Step timeout s s.cancel

/-- What a hall can come to that was empty in the beginning. -/
def Reachable (timeout : Nat) (s : Hall) : Prop := Relation.ReflTransGen (Step timeout) {} s

/-- Who is there once a caller has come further: that caller, and all others as before. -/
theorem getElem?_put (hc : s.callers[i]? = some c) :
    (s.put desk i d).callers[j]? = if j = i then some d else s.callers[j]? := by
  have hi : i < s.callers.length := (List.getElem?_eq_some_iff.mp hc).1
  rw [put, List.getElem?_set]
  grind

theorem eq_or_of_put {e : Caller} (hc : s.callers[i]? = some c) (he : (s.put desk i d).callers[j]? = some e) :
    (j = i ∧ e = d) ∨ (j ≠ i ∧ s.callers[j]? = some e) := by
  rw [getElem?_put hc] at he
  split at he
  · exact Or.inl ⟨‹_›, (Option.some.inj he).symm⟩
  · exact Or.inr ⟨‹_›, he⟩

/-- Who is there once a new caller has drawn a ticket. -/
theorem eq_or_of_ask {e : Caller} {preset command : Text} {action : BuildAction}
    (he : (s.ask preset action command).callers[j]? = some e) :
    s.callers[j]? = some e ∨
      j = s.callers.length ∧ e = { ticket := ⟨s.desk.next, preset, action⟩, command := command } := by
  simp only [ask, Desk.draw] at he
  grind

/-! ### What every step keeps -/

/-- Tickets are numbered as they were drawn, and no build is cancelled before its caller comes to the desk. -/
structure Numbered (s : Hall) : Prop where
  next : s.desk.next = UInt64.ofNat (s.callers.length + 1)
  number : ∀ (i : Nat) (c : Caller), s.callers[i]? = some c → c.ticket.number = UInt64.ofNat (i + 1)
  fresh : ∀ (i : Nat) (c : Caller), s.callers[i]? = some c → c.stage = .coming → c.cancelled = false

/-- **What holds at every moment**: whoever is active holds the desk, which nobody else does. -/
structure Sound (s : Hall) : Prop extends Numbered s where
  held : ∀ t, s.desk.holder = some t →
    ∃ (i : Nat) (c : Caller), s.callers[i]? = some c ∧ c.Active ∧ c.ticket = t
  holds : ∀ (i : Nat) (c : Caller), s.callers[i]? = some c → c.Active → s.desk.holder = some c.ticket

theorem sound_start : Sound {} where
  next := rfl
  number _ _ h := by cases h
  fresh _ _ h := by cases h
  held _ h := by cases h
  holds _ _ h := by cases h

/-- As long as the numbers have not come back, a ticket belongs to one caller. -/
theorem Sound.unique (h : Sound s) (few : s.callers.length < 2 ^ 64) (hc : s.callers[i]? = some c)
    (hd : s.callers[j]? = some d) (hnumber : c.ticket.number = d.ticket.number) : i = j := by
  have hi : i < s.callers.length := (List.getElem?_eq_some_iff.mp hc).1
  have hj : j < s.callers.length := (List.getElem?_eq_some_iff.mp hd).1
  rw [h.number i c hc, h.number j d hd] at hnumber
  have hsame := congrArg UInt64.toNat hnumber
  simp only [UInt64.toNat_ofNat'] at hsame
  omega

/-- Nobody is active at a desk that is free. -/
theorem Sound.not_active (h : Sound s) (hfree : s.desk.holder = none) (hc : s.callers[i]? = some c) :
    ¬c.Active := by
  intro hactive
  have hholds := h.holds i c hc hactive
  rw [hfree] at hholds
  cases hholds

/-- Somebody draws a ticket. -/
theorem Sound.ask (h : Sound s) (preset : Text) (action : BuildAction) (command : Text) :
    Sound (s.ask preset action command) := by
  refine ⟨⟨?_, fun j e he => ?_, fun j e he hcoming => ?_⟩, fun t ht => ?_, fun j e he hactive => ?_⟩
  · change s.desk.next + 1 = _
    rw [h.next, Hall.ask, List.length_append]
    apply UInt64.toNat.inj
    simp
  · rcases eq_or_of_ask he with he | ⟨rfl, rfl⟩
    · exact h.number j e he
    · exact h.next
  · rcases eq_or_of_ask he with he | ⟨rfl, rfl⟩
    · exact h.fresh j e he hcoming
    · rfl
  · obtain ⟨j, e, he, hactive⟩ := h.held t ht
    exact ⟨j, e, List.getElem?_append_left (List.getElem?_eq_some_iff.mp he).1 ▸ he, hactive⟩
  · rcases eq_or_of_ask he with he | ⟨rfl, rfl⟩
    · exact h.holds j e he hactive
    · cases hactive.1

/-- A caller comes further, whatever becomes of the holder of the desk. -/
theorem Numbered.put (h : Numbered s) (hc : s.callers[i]? = some c) (hticket : d.ticket = c.ticket)
    (hfresh : d.stage ≠ .coming) (hnext : desk.next = s.desk.next) : Numbered (s.put desk i d) := by
  refine ⟨?_, fun j e he => ?_, fun j e he hcoming => ?_⟩
  · rw [Hall.put, List.length_set]
    exact hnext.trans h.next
  · rcases eq_or_of_put hc he with ⟨rfl, rfl⟩ | ⟨-, he⟩
    · exact hticket ▸ h.number j c hc
    · exact h.number j e he
  · rcases eq_or_of_put hc he with ⟨rfl, rfl⟩ | ⟨-, he⟩
    · exact absurd hcoming hfresh
    · exact h.fresh j e he hcoming

/-- A caller comes further, and neither starts nor stops being active. -/
theorem Sound.put (h : Sound s) (hc : s.callers[i]? = some c) (hticket : d.ticket = c.ticket)
    (hfresh : d.stage ≠ .coming) (hactive : d.Active ↔ c.Active) : Sound (s.put s.desk i d) := by
  refine ⟨h.toNumbered.put hc hticket hfresh rfl, fun t ht => ?_, fun j e he he' => ?_⟩
  · obtain ⟨j, e, he, he', rfl⟩ := h.held t ht
    by_cases hj : j = i
    · subst hj
      obtain rfl := Option.some.inj (hc.symm.trans he)
      exact ⟨j, d, by rw [getElem?_put hc, if_pos rfl], hactive.mpr he', hticket⟩
    · exact ⟨j, e, by rw [getElem?_put hc, if_neg hj, he], he', rfl⟩
  · rcases eq_or_of_put hc he with ⟨rfl, rfl⟩ | ⟨-, he⟩
    · exact hticket ▸ h.holds j c hc (hactive.mp he')
    · exact h.holds j e he he'

/-- Coming to the desk, a caller is accepted if it is free, and refused if it is held. -/
theorem come_eq (s : Hall) (i : Nat) (c : Caller) :
    (s.desk.holder = none ∧
      s.come i c = s.put { s.desk with holder := some c.ticket } i { c with stage := .accepted }) ∨
    ∃ t, s.desk.holder = some t ∧
      s.come i c = s.put s.desk i { c with stage := .refused (.alreadyRunning t.preset t.action) } := by
  cases hholder : s.desk.holder with
  | none => exact Or.inl ⟨rfl, by rw [come, Desk.accept, hholder]⟩
  | some t => exact Or.inr ⟨t, rfl, by rw [come, Desk.accept, hholder]⟩

theorem Sound.come (h : Sound s) (hc : s.callers[i]? = some c) (hcoming : c.stage = .coming) :
    Sound (s.come i c) := by
  rcases come_eq s i c with ⟨hfree, heq⟩ | ⟨t, -, heq⟩
  · rw [heq]
    have hactive : ({ c with stage := .accepted } : Caller).Active := ⟨rfl, h.fresh i c hc hcoming⟩
    refine ⟨h.toNumbered.put hc rfl (by simp) rfl, fun t ht => ?_, fun j e he he' => ?_⟩
    · exact ⟨i, _, by rw [getElem?_put hc, if_pos rfl], hactive, Option.some.inj ht⟩
    · rcases eq_or_of_put hc he with ⟨rfl, rfl⟩ | ⟨-, he⟩
      · rfl
      · exact absurd he' (h.not_active hfree he)
  · rw [heq]
    refine h.put hc rfl (by simp) ?_
    simp [Caller.Active, Caller.inside, hcoming]

/-- A caller that has not been cancelled leaves a desk that is free then. -/
theorem Sound.leave_of_active (h : Sound s) (hc : s.callers[i]? = some c) (hactive : c.Active) :
    s.desk.leave c.ticket = { s.desk with holder := none } := by
  rw [Desk.leave, h.holds i c hc hactive, Option.map_some, if_pos rfl]

/-- **A caller that was cancelled** leaves the desk to whoever holds it. -/
theorem Sound.leave_of_cancelled (h : Sound s) (few : s.callers.length < 2 ^ 64) (hc : s.callers[i]? = some c)
    (hcancelled : c.cancelled = true) : s.desk.leave c.ticket = s.desk := by
  rw [Desk.leave, if_neg]
  intro hnumber
  obtain ⟨t, ht, hsame⟩ := Option.map_eq_some_iff.mp hnumber
  -- the desk is held by somebody active, who would have to be this caller
  obtain ⟨j, d, hd, hactive, rfl⟩ := h.held t ht
  obtain rfl := h.unique few hd hc hsame
  obtain rfl := Option.some.inj (hc.symm.trans hd)
  exact absurd (hcancelled.symm.trans hactive.2) (by simp)

theorem Sound.leave (h : Sound s) (few : s.callers.length < 2 ^ 64) (hc : s.callers[i]? = some c)
    (hinside : c.inside = true) (heard : Except Text (List Signal)) : Sound (s.leave i c heard) := by
  rw [Hall.leave]
  cases hcancelled : c.cancelled with
  | true =>
    rw [h.leave_of_cancelled few hc hcancelled]
    refine h.put hc rfl (by simp) ?_
    simp [Caller.Active, Caller.inside, hcancelled]
  | false =>
    have hactive : c.Active := ⟨hinside, hcancelled⟩
    rw [h.leave_of_active hc hactive]
    refine ⟨h.toNumbered.put hc rfl (by simp) rfl, fun t ht => ?_, fun j e he he' => ?_⟩
    · cases ht
    · rcases eq_or_of_put hc he with ⟨rfl, rfl⟩ | ⟨hne, he⟩
      · cases he'.1
      · -- nobody else is active while this caller holds the desk
        have hsame := Option.some.inj ((h.holds j e he he').symm.trans (h.holds i c hc hactive))
        exact absurd (h.unique few he hc (congrArg Ticket.number hsame)) hne

theorem cancel_of_free (h : s.desk.holder = none) : s.cancel = s := by
  rw [Hall.cancel, Desk.cancel, h]
  dsimp only
  rw [← h]

theorem cancel_of_held {t : Ticket} (h : s.desk.holder = some t) :
    s.cancel = { desk := { s.desk with holder := none },
                 callers := s.callers.map fun c => if c.ticket = t then c.callOff else c } := by
  rw [Hall.cancel, Desk.cancel, h]

theorem Sound.cancel (h : Sound s) (few : s.callers.length < 2 ^ 64) : Sound s.cancel := by
  cases hholder : s.desk.holder with
  | none => exact (cancel_of_free hholder).symm ▸ h
  | some t =>
    rw [cancel_of_held hholder]
    obtain ⟨i, c, hc, hactive, rfl⟩ := h.held t hholder
    -- the one who holds the desk hears of it, and all others are as before
    have hcases {j : Nat} {e : Caller}
        (he : (s.callers.map fun d => if d.ticket = c.ticket then d.callOff else d)[j]? = some e) :
        (s.callers[j]? = some c ∧ e = c.callOff) ∨ (s.callers[j]? = some e ∧ e.ticket ≠ c.ticket) := by
      rw [List.getElem?_map] at he
      obtain ⟨d, hd, rfl⟩ := Option.map_eq_some_iff.mp he
      split
      · rename_i hticket
        obtain rfl := h.unique few hd hc (congrArg Ticket.number hticket)
        obtain rfl := Option.some.inj (hc.symm.trans hd)
        exact Or.inl ⟨hc, rfl⟩
      · exact Or.inr ⟨hd, ‹_›⟩
    refine ⟨⟨?_, fun j e he => ?_, fun j e he he' => ?_⟩, fun t ht => ?_, fun j e he he' => ?_⟩
    · rw [List.length_map]
      exact h.next
    · rcases hcases he with ⟨hc, rfl⟩ | ⟨he, -⟩
      · exact h.number j c hc
      · exact h.number j e he
    · rcases hcases he with ⟨-, rfl⟩ | ⟨he, -⟩
      · have hinside := c.inside_callOff.trans hactive.1
        rw [Caller.inside, he'] at hinside
        cases hinside
      · exact h.fresh j e he he'
    · cases ht
    · rcases hcases he with ⟨-, rfl⟩ | ⟨he, hne⟩
      · cases he'.2
      · exact absurd (Option.some.inj ((h.holds j e he he').symm.trans hholder)) hne

theorem length_cancel (s : Hall) : s.cancel.callers.length = s.callers.length := by
  cases hholder : s.desk.holder with
  | none => rw [cancel_of_free hholder]
  | some t => rw [cancel_of_held hholder, List.length_map]

theorem Step.length_le (hstep : Step timeout s s') : s.callers.length ≤ s'.callers.length := by
  have hcome (i : Nat) (c : Caller) : (s.come i c).callers.length = s.callers.length := by
    rcases come_eq s i c with ⟨-, heq⟩ | ⟨t, -, heq⟩ <;> rw [heq, put, List.length_set]
  cases hstep with
  | ask => simp [Hall.ask, Desk.draw]
  | turnAway => exact Nat.le_refl _
  | come i c => exact Nat.le_of_eq (hcome i c).symm
  | start | fail | race | leave => simp [put, Hall.leave]
  | cancel => exact Nat.le_of_eq s.length_cancel.symm

/-- **One step**: what holds at every moment holds at the next. -/
theorem Sound.step (h : Sound s) (hstep : Step timeout s s') (few : s'.callers.length < 2 ^ 64) : Sound s' := by
  have hfew : s.callers.length < 2 ^ 64 := Nat.lt_of_le_of_lt hstep.length_le few
  cases hstep with
  | ask preset action command => exact h.ask preset.id action command
  | turnAway => exact h
  | come i c hc hcoming => exact h.come hc hcoming
  | start i c line hc haccepted =>
    refine h.put hc rfl (by simp) ?_
    simp [Caller.Active, Caller.inside, haccepted]
  | fail i c reason hc haccepted =>
    refine h.put hc rfl (by simp) ?_
    simp [Caller.Active, Caller.inside, haccepted]
  | race i c r r' hc hstarted =>
    refine h.put hc rfl (by simp) ?_
    simp [Caller.Active, Caller.inside, hstarted]
  | leave i c heard hc hends => exact h.leave hfew hc hends.inside heard
  | cancel => exact h.cancel hfew

/-- **Every hall**, in whatever order its callers come and go. -/
theorem Reachable.sound (h : Reachable timeout s) (few : s.callers.length < 2 ^ 64) : Sound s := by
  induction h with
  | refl => exact sound_start
  | tail _ hstep ih => exact (ih (Nat.lt_of_le_of_lt hstep.length_le few)).step hstep few

/-! ### Who holds the desk -/

theorem Sound.isBusy_iff (h : Sound s) :
    s.desk.isBusy = true ↔ ∃ (i : Nat) (c : Caller), s.callers[i]? = some c ∧ c.Active := by
  rw [Desk.isBusy, Option.isSome_iff_exists]
  constructor
  · rintro ⟨t, ht⟩
    obtain ⟨i, c, hc, hactive, -⟩ := h.held t ht
    exact ⟨i, c, hc, hactive⟩
  · rintro ⟨i, c, hc, hactive⟩
    exact ⟨c.ticket, h.holds i c hc hactive⟩

/-- Two who are active are one. -/
theorem Sound.unique_active (h : Sound s) (few : s.callers.length < 2 ^ 64) (hc : s.callers[i]? = some c)
    (hd : s.callers[j]? = some d) (hactive : c.Active) (hactive' : d.Active) : i = j := by
  have hsame := Option.some.inj ((h.holds i c hc hactive).symm.trans (h.holds j d hd hactive'))
  exact h.unique few hc hd (congrArg Ticket.number hsame)

/-- Coming to the desk, a caller is accepted exactly if it is free. -/
theorem accepted_iff (hc : s.callers[i]? = some c) :
    (s.come i c).callers[i]? = some { c with stage := .accepted } ↔ s.desk.isBusy = false := by
  rw [Desk.isBusy, Option.isSome_eq_false_iff, Option.isNone_iff_eq_none]
  rcases come_eq s i c with ⟨hfree, heq⟩ | ⟨t, ht, heq⟩
  · rw [heq, getElem?_put hc, if_pos rfl]
    exact iff_of_true rfl hfree
  · rw [heq, getElem?_put hc, if_pos rfl]
    exact iff_of_false (by simp) (by simp [ht])

/-- A caller that is refused leaves the desk alone. -/
theorem desk_of_refused {e : BuildError} (hc : s.callers[i]? = some c)
    (h : (s.come i c).callers[i]? = some { c with stage := .refused e }) : (s.come i c).desk = s.desk := by
  rcases come_eq s i c with ⟨-, heq⟩ | ⟨t, -, heq⟩
  · rw [heq, getElem?_put hc, if_pos rfl] at h
    simp at h
  · rw [heq, put]

/-- **Who is refused** is told whose build is active. -/
theorem Sound.refused_iff (h : Sound s) (hc : s.callers[i]? = some c) (e : BuildError) :
    (s.come i c).callers[i]? = some { c with stage := .refused e } ↔
      ∃ (j : Nat) (d : Caller), s.callers[j]? = some d ∧ d.Active ∧
        e = .alreadyRunning d.ticket.preset d.ticket.action := by
  rcases come_eq s i c with ⟨hfree, heq⟩ | ⟨t, ht, heq⟩
  · rw [heq, getElem?_put hc, if_pos rfl]
    refine iff_of_false (by simp) ?_
    rintro ⟨j, d, hd, hactive, -⟩
    exact h.not_active hfree hd hactive
  · rw [heq, getElem?_put hc, if_pos rfl]
    have htold : (some { c with stage := .refused (.alreadyRunning t.preset t.action) } : Option Caller) =
        some { c with stage := .refused e } ↔ e = .alreadyRunning t.preset t.action := by
      simp [eq_comm]
    rw [htold]
    constructor
    · rintro rfl
      obtain ⟨j, d, hd, hactive, rfl⟩ := h.held t ht
      exact ⟨j, d, hd, hactive, rfl⟩
    · rintro ⟨j, d, hd, hactive, rfl⟩
      obtain rfl := Option.some.inj (ht.symm.trans (h.holds j d hd hactive))
      rfl

/-- **The desk follows its callers**, whatever has happened before. It is held exactly if somebody is active,
and then by the only one who is. Whoever comes is refused exactly if somebody is active, and is told whose build
that is; drawing a ticket and being refused leave the holder of the desk alone. A caller that was cancelled
leaves the desk as it is, and when nobody is inside, it is free. -/
theorem desk_follows_callers (h : Reachable timeout s) (few : s.callers.length < 2 ^ 64) :
    (s.desk.isBusy = true ↔ ∃ (i : Nat) (c : Caller), s.callers[i]? = some c ∧ c.Active) ∧
    (∀ (i j : Nat) (c d : Caller), s.callers[i]? = some c → s.callers[j]? = some d → c.Active → d.Active →
      i = j ∧ s.desk.holder = some c.ticket) ∧
    (∀ (i : Nat) (c : Caller), s.callers[i]? = some c → c.stage = .coming →
      (∀ e, (s.come i c).callers[i]? = some { c with stage := .refused e } ↔
        ∃ (j : Nat) (d : Caller), s.callers[j]? = some d ∧ d.Active ∧
          e = .alreadyRunning d.ticket.preset d.ticket.action) ∧
      ((s.come i c).callers[i]? = some { c with stage := .accepted } ↔ s.desk.isBusy = false) ∧
      ∀ e, (s.come i c).callers[i]? = some { c with stage := .refused e } → (s.come i c).desk = s.desk) ∧
    (∀ preset action command, (s.ask preset action command).desk.holder = s.desk.holder) ∧
    (∀ (i : Nat) (c : Caller) heard, s.callers[i]? = some c → c.Ends timeout heard → c.cancelled = true →
      (s.leave i c heard).desk = s.desk) ∧
    ((∀ c ∈ s.callers, c.inside = false) → s.desk.isBusy = false) := by
  have hsound := h.sound few
  refine ⟨hsound.isBusy_iff, fun i j c d hc hd hactive hactive' => ⟨?_, ?_⟩, fun i c hc _ => ⟨?_, ?_, ?_⟩,
    fun _ _ _ => rfl, fun i c heard hc _ hcancelled => ?_, fun hnone => ?_⟩
  · exact hsound.unique_active few hc hd hactive hactive'
  · exact hsound.holds i c hc hactive
  · exact hsound.refused_iff hc
  · exact accepted_iff hc
  · exact fun e => desk_of_refused hc
  · exact hsound.leave_of_cancelled few hc hcancelled
  · rw [← Bool.not_eq_true, hsound.isBusy_iff]
    rintro ⟨i, c, hc, hactive⟩
    exact absurd hactive.1 (by simp [hnone c (List.mem_of_getElem? hc)])

/-- A race that was cancelled, and whose process has been killed and waited for. -/
def reaped : Race := { cancelled := true, ending := .ended none, heard := [.cancelled, .ended none] }

/-- A hall in which a build that was cancelled has been waited for and is about to leave, while a second one
holds the desk and a third comes. -/
def handover : Hall where
  desk := { holder := some ⟨2, "linux", .configure⟩, next := 4 }
  callers := [
    { ticket := ⟨1, "linux", .build⟩, command := "make", stage := .started reaped, cancelled := true },
    { ticket := ⟨2, "linux", .configure⟩, command := "cmake", stage := .accepted },
    { ticket := ⟨3, "linux", .build⟩, command := "make" }]

theorem reachable_handover (timeout : Nat) : Reachable timeout handover := by
  obtain ⟨line, hline⟩ : ∃ line, CommandLine.parse Builder.makePreset.build = some line :=
    Option.isSome_iff_exists.mp (by decide)
  have hasked : Reachable timeout _ := .tail .refl (.ask {} Builder.makePreset .build _ rfl)
  have hstarted := (hasked.tail (.come _ 0 _ rfl rfl)).tail (.start _ 0 _ line rfl rfl hline)
  have hcancelled := hstarted.tail (.cancel _)
  have hsecond := (hcancelled.tail (.ask _ Builder.makePreset .configure _ rfl)).tail (.come _ 1 _ rfl rfl)
  have hthird := hsecond.tail (.ask _ Builder.makePreset .build _ rfl)
  -- the first hears that its build was cancelled, kills the process, and waits for it
  have hheard := hthird.tail (.race _ 0 _ _ _ rfl rfl (.hear _ .cancelled rfl rfl) rfl)
  have hkilled := hheard.tail (.race _ 0 _ _ _ rfl rfl (.ends _ (.ended none) rfl) rfl)
  have hreaped := hkilled.tail (.race _ 0 _ _ _ rfl rfl (.reap _ none (Or.inl rfl) rfl rfl) rfl)
  exact hreaped

/-- The first leaves the desk to the second, and the third is told of the second. -/
theorem desk_follows_handover : ∃ first third : Caller,
    handover.callers[0]? = some first ∧ handover.callers[2]? = some third ∧
    (handover.leave 0 first (.ok reaped.heard)).desk = handover.desk ∧
    (handover.come 2 third).callers[2]? =
      some { third with stage := .refused (.alreadyRunning "linux" .configure) } := by
  obtain ⟨-, -, hcome, -, hleave, -⟩ := desk_follows_callers (reachable_handover 300000) (by decide)
  refine ⟨_, _, rfl, rfl, hleave 0 _ _ rfl (.watched reaped rfl (Or.inr ⟨Or.inl rfl, Or.inl rfl⟩)) rfl, ?_⟩
  exact ((hcome 2 _ rfl rfl).1 _).mpr ⟨1, _, rfl, ⟨rfl, rfl⟩, rfl⟩

/-! ### Newcomers

Whoever draws a ticket and comes to the desk before anything else happens is the last of all callers. -/

section Newcomers

variable {preset : Preset} {action : BuildAction} {command : Text}

/-- One more caller, and the desk as it is then. -/
def join (s : Hall) (desk : Desk) (c : Caller) : Hall := { desk := desk, callers := s.callers ++ [c] }

theorem getElem?_join (s : Hall) (desk : Desk) (c : Caller) :
    (s.join desk c).callers[s.callers.length]? = some c := List.getElem?_concat_length

theorem join_put (s : Hall) (desk desk' : Desk) (c d : Caller) :
    (s.join desk c).put desk' s.callers.length d = s.join desk' d := by
  have hset : (s.callers ++ [c]).set s.callers.length d = s.callers ++ [d] := by
    rw [List.set_append_right _ _ (Nat.le_refl _), Nat.sub_self, List.set_cons_zero]
  rw [put, join, join, hset]

/-- The caller who has drawn the next ticket. -/
def newcomer (s : Hall) (preset : Preset) (action : BuildAction) (command : Text) : Caller :=
  { ticket := ⟨s.desk.next, preset.id, action⟩, command := command }

theorem newcomer_comes (timeout : Nat) (s : Hall) (hcommand : Builder.commandOf preset action = .ok command) :
    Relation.ReflTransGen (Step timeout) s
      ((s.join { s.desk with next := s.desk.next + 1 } (s.newcomer preset action command)).come s.callers.length
        (s.newcomer preset action command)) :=
  .tail (.single (.ask s preset action command hcommand)) (.come _ _ _ (getElem?_join s _ _) rfl)

/-- A newcomer to a desk that is held is refused. -/
theorem newcomer_refused (timeout : Nat) (hcommand : Builder.commandOf preset action = .ok command) {t : Ticket}
    (ht : s.desk.holder = some t) : Relation.ReflTransGen (Step timeout) s
      (s.join { s.desk with next := s.desk.next + 1 }
        { s.newcomer preset action command with stage := .refused (.alreadyRunning t.preset t.action) }) := by
  have hcomes := newcomer_comes timeout s hcommand
  rcases come_eq (s.join { s.desk with next := s.desk.next + 1 } (s.newcomer preset action command))
    s.callers.length (s.newcomer preset action command) with ⟨hfree, -⟩ | ⟨t', ht', heq⟩
  · cases ht.symm.trans hfree
  · obtain rfl := Option.some.inj (ht.symm.trans ht')
    rwa [heq, join_put] at hcomes

/-- A newcomer to a desk that is free is accepted. -/
theorem newcomer_accepted (timeout : Nat) (hcommand : Builder.commandOf preset action = .ok command)
    (hfree : s.desk.holder = none) : Relation.ReflTransGen (Step timeout) s
      (s.join ⟨some (s.newcomer preset action command).ticket, s.desk.next + 1⟩
        { s.newcomer preset action command with stage := .accepted }) := by
  have hcomes := newcomer_comes timeout s hcommand
  rcases come_eq (s.join { s.desk with next := s.desk.next + 1 } (s.newcomer preset action command))
    s.callers.length (s.newcomer preset action command) with ⟨-, heq⟩ | ⟨t', ht', -⟩
  · rwa [heq, join_put] at hcomes
  · cases hfree.symm.trans ht'

/-- A newcomer to a desk that is free can start a process, if there is a command. -/
theorem newcomer_started (timeout : Nat) (hcommand : Builder.commandOf preset action = .ok command)
    (hfree : s.desk.holder = none) {line : CommandLine} (hline : CommandLine.parse command = some line) :
    Relation.ReflTransGen (Step timeout) s
      (s.join ⟨some (s.newcomer preset action command).ticket, s.desk.next + 1⟩
        { s.newcomer preset action command with stage := .started {} }) := by
  have hstarted := (newcomer_accepted timeout hcommand hfree).tail
    (.start _ _ _ line (getElem?_join s _ _) rfl hline)
  rwa [join_put] at hstarted

/-- A newcomer to a desk that is free leaves again if no process can be started. -/
theorem newcomer_unstarted (timeout : Nat) (hcommand : Builder.commandOf preset action = .ok command)
    (hfree : s.desk.holder = none) (reason : Text) : Relation.ReflTransGen (Step timeout) s
      (s.join ⟨none, s.desk.next + 1⟩
        { s.newcomer preset action command with stage := .gone (.error reason) }) := by
  have hfailed := (newcomer_accepted timeout hcommand hfree).tail
    (.fail _ _ _ reason (getElem?_join s _ _) rfl)
  rw [join_put] at hfailed
  have hleft := hfailed.tail (.leave _ _ _ _ (getElem?_join s _ _) (.unstarted reason rfl))
  have hdesk : Desk.leave ⟨some (s.newcomer preset action command).ticket, s.desk.next + 1⟩
      (s.newcomer preset action command).ticket = ⟨none, s.desk.next + 1⟩ := if_pos rfl
  rw [leave, join_put] at hleft
  exact hdesk ▸ hleft

end Newcomers

/-! ### Who has a process -/

/-- **Nobody enters while somebody is inside**: whoever is inside after this step was inside before, or nobody
was. -/
def StepInTurn (timeout : Nat) (s s' : Hall) : Prop :=
  Step timeout s s' ∧ ∀ (i : Nat) (c' : Caller), s'.callers[i]? = some c' → c'.inside = true →
    (∃ c, s.callers[i]? = some c ∧ c.inside = true) ∨ ∀ c ∈ s.callers, c.inside = false

/-- What a hall can come to in which one caller leaves before another enters. -/
def ReachableInTurn (timeout : Nat) (s : Hall) : Prop := Relation.ReflTransGen (StepInTurn timeout) {} s

/-- Whoever is inside was inside before, or is the one who was just accepted. -/
theorem Step.entered {c' : Caller} (hstep : Step timeout s s') (hc' : s'.callers[i]? = some c')
    (hinside : c'.inside = true) : (∃ c, s.callers[i]? = some c ∧ c.inside = true) ∨
      ∀ j, j ≠ i → s'.callers[j]? = s.callers[j]? := by
  -- a caller who comes further is only inside if it was
  have hput {k : Nat} {c d : Caller} {desk : Desk} (hc : s.callers[k]? = some c)
      (hd : d.inside = true → c.inside = true) (hc' : (s.put desk k d).callers[i]? = some c') :
      ∃ c, s.callers[i]? = some c ∧ c.inside = true := by
    rcases eq_or_of_put hc hc' with ⟨rfl, rfl⟩ | ⟨-, he⟩
    · exact ⟨c, hc, hd hinside⟩
    · exact ⟨c', he, hinside⟩
  cases hstep with
  | ask preset action command =>
    rcases eq_or_of_ask hc' with he | ⟨-, rfl⟩
    · exact Or.inl ⟨c', he, hinside⟩
    · cases hinside
  | turnAway => exact Or.inl ⟨c', hc', hinside⟩
  | come k c hc =>
    rcases come_eq s k c with ⟨-, heq⟩ | ⟨t, -, heq⟩
    · rw [heq] at hc' ⊢
      rcases eq_or_of_put hc hc' with ⟨rfl, -⟩ | ⟨-, he⟩
      · exact Or.inr fun j hj => by rw [getElem?_put hc, if_neg hj]
      · exact Or.inl ⟨c', he, hinside⟩
    · exact Or.inl (hput hc (fun h => by cases h) (heq ▸ hc'))
  | start k c line hc h => exact Or.inl (hput hc (fun _ => by rw [Caller.inside, h]) hc')
  | fail k c reason hc h => exact Or.inl (hput hc (fun _ => by rw [Caller.inside, h]) hc')
  | race k c r r' hc h => exact Or.inl (hput hc (fun _ => by rw [Caller.inside, h]) hc')
  | leave k c heard hc h => exact Or.inl (hput hc (fun _ => h.inside) hc')
  | cancel =>
    left
    cases hholder : s.desk.holder with
    | none => exact ⟨c', cancel_of_free hholder ▸ hc', hinside⟩
    | some t =>
      rw [cancel_of_held hholder, List.getElem?_map] at hc'
      obtain ⟨c, hc, rfl⟩ := Option.map_eq_some_iff.mp hc'
      refine ⟨c, hc, ?_⟩
      split at hinside
      · exact c.inside_callOff ▸ hinside
      · exact hinside

/-- **One inside at a time**, if nobody enters while somebody is inside. -/
theorem ReachableInTurn.unique (h : ReachableInTurn timeout s) (hc : s.callers[i]? = some c)
    (hd : s.callers[j]? = some d) (hinside : c.inside = true) (hinside' : d.inside = true) : i = j := by
  induction h generalizing i j c d with
  | refl => cases hc
  | tail _ hstep ih =>
    obtain ⟨hstep, hturn⟩ := hstep
    by_cases heq : i = j
    · exact heq
    rcases hstep.entered hc hinside with ⟨c, hc, hinside⟩ | hothers
    · rcases hturn j d hd hinside' with ⟨d, hd, hinside'⟩ | hnobody
      · exact ih hc hd hinside hinside'
      · exact absurd hinside (by simp [hnobody c (List.mem_of_getElem? hc)])
    · -- if the first has just entered, the other was there before
      rw [hothers j (Ne.symm heq)] at hd
      rcases hturn i c hc hinside with ⟨c, hc, hinside⟩ | hnobody
      · exact ih hc hd hinside hinside'
      · exact absurd hinside' (by simp [hnobody d (List.mem_of_getElem? hd)])

/-- One more process is started, and its build is cancelled. -/
theorem Reachable.exists_more (h : Reachable timeout s) (hfree : s.desk.holder = none)
    (hall : ∀ c ∈ s.callers, c.Alive timeout ∧ c.cancelled = true) : ∃ s', Reachable timeout s' ∧
      s'.desk.holder = none ∧ s'.callers.length = s.callers.length + 1 ∧
      ∀ c ∈ s'.callers, c.Alive timeout ∧ c.cancelled = true := by
  obtain ⟨line, hline⟩ : ∃ line, CommandLine.parse Builder.makePreset.build = some line :=
    Option.isSome_iff_exists.mp (by decide)
  have hcommand : Builder.commandOf Builder.makePreset .build = .ok Builder.makePreset.build := rfl
  have hstarted := newcomer_started timeout hcommand hfree hline
  refine ⟨_, (h.trans hstarted).tail (.cancel _), ?_⟩
  rw [cancel_of_held rfl]
  refine ⟨rfl, ?_, fun e he => ?_⟩
  · rw [List.length_map, join, List.length_append, List.length_singleton]
  · obtain ⟨d, hd, rfl⟩ := List.mem_map.mp he
    rcases List.mem_append.mp hd with hd | hd
    · obtain ⟨halive, hcancelled⟩ := hall d hd
      split
      · exact ⟨halive.callOff, rfl⟩
      · exact ⟨halive, hcancelled⟩
    · rw [List.mem_singleton.mp hd, if_pos rfl]
      exact ⟨(Caller.alive_started rfl).callOff, rfl⟩

/-- Of two whose processes are alive, one was cancelled. -/
theorem Sound.cancelled_of_alive (h : Sound s) (few : s.callers.length < 2 ^ 64) (hc : s.callers[i]? = some c)
    (hd : s.callers[j]? = some d) (halive : c.Alive timeout) (halive' : d.Alive timeout) :
    i = j ∨ c.cancelled = true ∨ d.cancelled = true := by
  cases hcancelled : c.cancelled with
  | true => exact Or.inr (Or.inl rfl)
  | false =>
    cases hcancelled' : d.cancelled with
    | true => exact Or.inr (Or.inr rfl)
    | false =>
      exact Or.inl (h.unique_active few hc hd ⟨halive.inside, hcancelled⟩ ⟨halive'.inside, hcancelled'⟩)

/-- Any number of processes, all of builds that were cancelled. -/
theorem exists_alive (timeout n : Nat) : ∃ s, Reachable timeout s ∧ s.desk.holder = none ∧
    s.callers.length = n ∧ ∀ c ∈ s.callers, c.Alive timeout ∧ c.cancelled = true := by
  induction n with
  | zero => exact ⟨{}, .refl, rfl, rfl, by simp⟩
  | succ n ih =>
    obtain ⟨s, h, hfree, rfl, halive⟩ := ih
    exact h.exists_more hfree halive

/-- **How many processes can be alive together.** Of two, one belongs to a build that was cancelled; one that
was not holds the desk. There is only one if nobody enters while somebody is inside. Otherwise there can be any
number, all of builds that were cancelled and have not waited for their processes. -/
theorem alive_together (timeout : Nat) :
    (∀ s, Reachable timeout s → s.callers.length < 2 ^ 64 → ∀ (i j : Nat) (c d : Caller),
      s.callers[i]? = some c → s.callers[j]? = some d → c.Alive timeout → d.Alive timeout →
      i = j ∨ c.cancelled = true ∨ d.cancelled = true) ∧
    (∀ s, Reachable timeout s → s.callers.length < 2 ^ 64 → ∀ (i : Nat) (c : Caller),
      s.callers[i]? = some c → c.Alive timeout → c.cancelled = false → s.desk.holder = some c.ticket) ∧
    (∀ s, ReachableInTurn timeout s → ∀ (i j : Nat) (c d : Caller), s.callers[i]? = some c →
      s.callers[j]? = some d → c.Alive timeout → d.Alive timeout → i = j) ∧
    ∀ n, ∃ s, Reachable timeout s ∧ s.callers.length = n ∧
      ∀ c ∈ s.callers, c.Alive timeout ∧ c.cancelled = true := by
  refine ⟨fun s h few i j c d hc hd => ?_, fun s h few i c hc halive hcancelled => ?_,
    fun s h i j c d hc hd halive halive' => ?_, fun n => ?_⟩
  · exact (h.sound few).cancelled_of_alive few hc hd
  · exact (h.sound few).holds i c hc ⟨halive.inside, hcancelled⟩
  · exact h.unique hc hd halive.inside halive'.inside
  · obtain ⟨s, h, -, hs⟩ := exists_alive timeout n
    exact ⟨s, h, hs⟩

/-- Of two that are alive, one was cancelled. -/
theorem alive_together_of_two : ∃ (s : Hall) (c d : Caller), Reachable 300000 s ∧ s.callers[0]? = some c ∧
    s.callers[1]? = some d ∧ c.Alive 300000 ∧ d.Alive 300000 ∧ (c.cancelled = true ∨ d.cancelled = true) := by
  obtain ⟨htwo, -, -, hmany⟩ := alive_together 300000
  obtain ⟨s, h, hlength, halive⟩ := hmany 2
  have hc : s.callers[0]? = some s.callers[0] := List.getElem?_eq_getElem (by omega)
  have hd : s.callers[1]? = some s.callers[1] := List.getElem?_eq_getElem (by omega)
  have hc' := (halive _ (List.mem_of_getElem? hc)).1
  have hd' := (halive _ (List.mem_of_getElem? hd)).1
  have hcancelled := htwo s h (by omega) 0 1 _ _ hc hd hc' hd'
  exact ⟨s, _, _, h, hc, hd, hc', hd', hcancelled.resolve_left (by decide)⟩

/-- **A build is started while the process of one that was cancelled is alive.** -/
theorem alive_after_cancel : ∃ (w : Workspace) (preset : Preset) (t t' : Ticket),
    let s : BuildSession := { builder := {}, workspace := w }
    let first := s.start ⟨"/p"⟩ preset .build
    let second := first.2.cancel.2.start ⟨"/p"⟩ preset .configure
    t ≠ t' ∧ second.2.alive.map BackgroundBuild.ticket = [t, t'] := by
  let preset : Preset := { id := "linux", configure := "sleep 1", build := "sleep 5", buildDir := ⟨"build"⟩ }
  let w : Workspace :=
    { disk := { nodes :=
        [(["bin"], .directory), (["bin", "sleep"], .file (Text.toBytes "")), (["p"], .directory)] } }
  refine ⟨w, preset, ⟨1, "linux", .build⟩, ⟨2, "linux", .configure⟩, ?_⟩
  decide +kernel

end Hall

end BuildMender
