import BuildMender.Proofs.Build.ClosedWorld
import BuildMender.Proofs.Build.Hall
import Mathlib.Data.List.Induction

/-!
# Sessions in a hall

A session serves one request after the other: it starts a build, waits for one, does both at once, or cancels.
What it does is one of the orders in which callers can come and go in a hall. A hall shows a session
(`BuildMender.Hall.Shows`) if the desk is the same and those who are inside are the builds in the background,
each with a process that nobody has watched yet. Serving a request takes a hall that shows the session to another
that does so again, and from this every session that has served fewer than 2 ^ 64 requests is shown by a hall
that can be reached (`BuildMender.BuildSession.exists_hall`). So what holds in every hall holds of every session.
-/

namespace BuildMender

/-! ### Races that nobody cancels -/

namespace Race

variable {timeout : Nat} {r r' : Race}

/-- A step that does not cancel. -/
def CalmStep (timeout : Nat) (r r' : Race) : Prop := Step timeout r r' ∧ r'.cancelled = r.cancelled

theorem Step.cancelled (h : Step timeout r r') (hr : r.cancelled = true) : r'.cancelled = true := by
  cases h with
  | cancel => rfl
  | _ => exact hr

/-- A race that has not been cancelled in the end has not been cancelled before. -/
theorem Reachable.calm (h : Reachable timeout r) (hr : r.cancelled = false) :
    Relation.ReflTransGen (CalmStep timeout) {} r := by
  induction h with
  | refl => exact .refl
  | @tail q r _ hstep ih =>
    have hq : q.cancelled = false := by
      cases hq : q.cancelled with
      | false => rfl
      | true => exact (hstep.cancelled hq).symm.trans hr
    exact (ih hq).tail ⟨hstep, hr.trans hq.symm⟩

/-- A race that was cancelled at once: the process is killed and waited for. -/
theorem exists_cancelled (timeout : Nat) : ∃ r',
    Relation.ReflTransGen (CalmStep timeout) { cancelled := true } r' ∧ r'.Over timeout ∧
    r'.watch timeout = { Watch.observeAll timeout {} [.cancelled] with status := some none } := by
  let r : Race := { cancelled := true, heard := [.cancelled] }
  have hheard : CalmStep timeout { cancelled := true } r := ⟨.hear _ .cancelled rfl rfl, rfl⟩
  have hkilled : CalmStep timeout r { r with ending := .ended none } := ⟨.ends r (.ended none) rfl, rfl⟩
  have hreaped : CalmStep timeout { r with ending := .ended none }
      (Race.hear { r with ending := .ended none } _) :=
    ⟨.reap _ none (Or.inl rfl) rfl rfl, rfl⟩
  refine ⟨_, ((Relation.ReflTransGen.single hheard).tail hkilled).tail hreaped,
    over_reaped (Or.inl rfl) rfl, ?_⟩
  exact watch_reap none (Or.inl rfl) rfl

end Race

namespace BackgroundBuild

/-- The caller of a build in the background, whose process nobody has watched yet. -/
def caller (b : BackgroundBuild) : Caller :=
  { ticket := b.ticket, command := b.command, stage := .started { cancelled := b.cancelled }
    cancelled := b.cancelled }

theorem ticket_caller (b : BackgroundBuild) : b.caller.ticket = b.ticket := rfl

theorem inside_caller (b : BackgroundBuild) : b.caller.inside = true := rfl

/-- What is heard of a build in the background is heard in a race that comes to its end. -/
theorem exists_race (builder : Builder) (b : BackgroundBuild) : ∃ r : Race,
    Relation.ReflTransGen (Race.CalmStep builder.timeout) { cancelled := b.cancelled } r ∧
    r.Over builder.timeout ∧ ∀ preset action command, builder.report preset action command (.ok r.heard) =
      builder.report preset action command (.ok b.heard) := by
  cases hcancelled : b.cancelled with
  | false =>
    obtain ⟨r, hr, hover, hcalm, hreport⟩ := builder.exists_race_ofRecord b.process
    refine ⟨r, hr.calm hcalm, hover, fun preset action command => ?_⟩
    rw [hreport, heard, hcancelled]
    rfl
  | true =>
    obtain ⟨r, hr, hover, hwatch⟩ := Race.exists_cancelled builder.timeout
    refine ⟨r, hr, hover, fun preset action command => ?_⟩
    have hheard : Watch.ofSignals builder.timeout b.heard =
        Watch.observeAll builder.timeout {} [.cancelled] := by
      rw [heard, hcancelled]
      rfl
    simp only [Builder.report, Builder.ofSignals_of_over hover, hwatch, hheard]
    rw [Builder.conclude_killed rfl]

end BackgroundBuild

namespace Hall

variable {timeout : Nat} {s : Hall} {x : BuildSession} {i : Nat} {c d : Caller}

theorem put_put (s : Hall) (desk desk' : Desk) (i : Nat) (c d : Caller) :
    (s.put desk i c).put desk' i d = s.put desk' i d := by
  rw [put, put, put, List.set_set]

/-- A caller's process or its watch goes on for a while. -/
theorem race_steps {r r' : Race} (h : Relation.ReflTransGen (Race.CalmStep timeout) r r')
    (hc : s.callers[i]? = some { c with stage := .started r }) :
    Relation.ReflTransGen (Step timeout) s (s.put s.desk i { c with stage := .started r' }) := by
  induction h with
  | refl =>
    obtain ⟨hi, heq⟩ := List.getElem?_eq_some_iff.mp hc
    rw [put, ← heq, List.set_getElem_self]
  | @tail q r' _ hstep ih =>
    have hq : (s.put s.desk i { c with stage := .started q }).callers[i]? =
        some { c with stage := .started q } := by
      rw [getElem?_put hc, if_pos rfl]
    have hnext := Step.race _ i _ q r' hq rfl hstep.1 hstep.2
    rw [put_put] at hnext
    exact ih.tail hnext

/-- **A hall shows a session**: the desk is the same, and those who are inside are the builds in the
background. -/
structure Shows (timeout : Nat) (s : Hall) (x : BuildSession) : Prop where
  timeout : x.builder.timeout = timeout
  desk : s.desk = x.desk
  inside : s.callers.filter Caller.inside = x.alive.map BackgroundBuild.caller

/-- A caller who joins is inside with all who were before, or with none else. -/
theorem Shows.filter_join (h : Shows timeout s x) (desk : Desk) (c : Caller) :
    (s.join desk c).callers.filter Caller.inside =
      x.alive.map BackgroundBuild.caller ++ if c.inside then [c] else [] := by
  rw [join, List.filter_append, h.inside]
  cases hc : c.inside <;> simp [hc]

/-- A build asked for: the caller draws a ticket and comes to the desk, and if it is accepted, a process is
started, or it leaves again. -/
theorem Shows.start (h : Shows timeout s x) (root : Path) (preset : Preset) (action : BuildAction) :
    ∃ s', Relation.ReflTransGen (Step timeout) s s' ∧ s'.callers.length ≤ s.callers.length + 1 ∧
      Shows timeout s' (x.start root preset action).2 := by
  obtain ⟨desk, callers⟩ := s
  obtain rfl : desk = x.desk := h.desk
  have hlength (desk : Desk) (c : Caller) :
      (join ⟨x.desk, callers⟩ desk c).callers.length ≤ callers.length + 1 := by
    simp [join]
  rw [BuildSession.start]
  cases hcommand : Builder.commandOf preset action with
  | error e => exact ⟨⟨x.desk, callers⟩, .refl, Nat.le_succ _, h⟩
  | ok command =>
    dsimp only [Desk.draw]
    rw [Desk.accept]
    -- the caller who joins is inside only if a process was started for it
    cases hholder : x.desk.holder with
    | some t =>
      refine ⟨_, newcomer_refused timeout hcommand hholder, hlength _ _, h.timeout, ?_, ?_⟩
      · change ({ holder := x.desk.holder, next := x.desk.next + 1 } : Desk) = { holder := some t, next := _ }
        rw [hholder]
      · rw [h.filter_join]
        exact List.append_nil _
    | none =>
      dsimp only
      cases hlaunch : x.builder.launch x.workspace.disk root preset action command with
      | error reason =>
        refine ⟨_, newcomer_unstarted timeout hcommand hholder reason, hlength _ _, h.timeout,
          (if_pos rfl).symm, ?_⟩
        rw [h.filter_join]
        exact List.append_nil _
      | ok process =>
        obtain ⟨line, hline⟩ : ∃ line, CommandLine.parse command = some line := by
          rw [Builder.launch, Builder.launchBy] at hlaunch
          split at hlaunch
          · cases hlaunch
          · exact ⟨_, ‹_›⟩
        refine ⟨_, newcomer_started timeout hcommand hholder hline, hlength _ _, h.timeout, rfl, ?_⟩
        rw [h.filter_join, List.map_append]
        rfl

/-- As long as the numbers have not come back, all are different. -/
theorem Sound.nodup_number (h : Sound s) (few : s.callers.length < 2 ^ 64) :
    (s.callers.map fun c => c.ticket.number).Nodup := by
  rw [List.Nodup, List.pairwise_iff_getElem]
  intro i j hi hj hlt heq
  rw [List.length_map] at hi hj
  rw [List.getElem_map, List.getElem_map] at heq
  exact absurd (h.unique few (List.getElem?_eq_getElem hi) (List.getElem?_eq_getElem hj) heq) (by omega)

/-- Once a caller is no longer inside, all others who were are still there: nobody else has this number. -/
theorem Sound.filter_inside (h : Sound s) (few : s.callers.length < 2 ^ 64) {above below : List Caller}
    (hcallers : s.callers = above ++ c :: below) (hinside : c.inside = true) (hgone : d.inside = false) :
    (above ++ d :: below).filter Caller.inside =
      (s.callers.filter Caller.inside).filter fun e => e.ticket.number != c.ticket.number := by
  have hnodup := h.nodup_number few
  rw [hcallers, List.map_append, List.map_cons, List.nodup_append, List.nodup_cons] at hnodup
  obtain ⟨-, ⟨hbelow, -⟩, habove⟩ := hnodup
  have hkept {l : List Caller} (hl : l = above ∨ l = below) :
      (l.filter Caller.inside).filter (fun e => e.ticket.number != c.ticket.number) =
        l.filter Caller.inside := by
    refine List.filter_eq_self.mpr fun e he => bne_iff_ne.mpr ?_
    have he := (List.mem_filter.mp he).1
    rcases hl with rfl | rfl
    · exact habove _ (List.mem_map_of_mem he) _ List.mem_cons_self
    · intro heq
      exact hbelow (heq ▸ List.mem_map_of_mem he)
  rw [hcallers, List.filter_append, List.filter_append, List.filter_append,
    List.filter_cons_of_neg (Bool.not_eq_true _ ▸ hgone), List.filter_cons_of_pos hinside,
    List.filter_cons_of_neg (by simp), hkept (Or.inl rfl), hkept (Or.inr rfl)]

/-- **A build waited for**: its caller watches the process to its end, and when it leaves the desk, it has heard
what the result is made of. -/
theorem Shows.settle (h : Shows timeout s x) (hsound : Sound s) (few : s.callers.length < 2 ^ 64)
    {b : BackgroundBuild} (hb : b ∈ x.alive) : ∃ s', Relation.ReflTransGen (Step timeout) s s' ∧
      s'.callers.length = s.callers.length ∧ Shows timeout s' (x.settle b).2 ∧
      ∃ heard, { b.caller with stage := .gone (.ok heard) } ∈ s'.callers ∧
        ∀ preset action command, x.builder.report preset action command (.ok heard) =
          x.builder.report preset action command (.ok b.heard) := by
  have hmem : b.caller ∈ s.callers.filter Caller.inside := by
    rw [h.inside]
    exact List.mem_map_of_mem hb
  obtain ⟨above, below, hcallers⟩ := List.append_of_mem (List.mem_filter.mp hmem).1
  have hc : s.callers[above.length]? = some b.caller := by
    rw [hcallers]
    simp
  obtain ⟨r, hsteps, hover, hreport⟩ := b.exists_race x.builder
  rw [h.timeout] at hsteps hover
  have hraced := race_steps (c := b.caller) hsteps hc
  have hc' : (s.put s.desk above.length { b.caller with stage := .started r }).callers[above.length]? =
      some { b.caller with stage := .started r } := by
    rw [getElem?_put hc, if_pos rfl]
  have hleft := hraced.tail (.leave _ _ _ _ hc' (.watched r rfl hover))
  rw [Hall.leave, put_put] at hleft
  have hset (d : Caller) : s.callers.set above.length d = above ++ d :: below := by
    rw [hcallers, List.set_append_right _ _ (Nat.le_refl _), Nat.sub_self, List.set_cons_zero]
  refine ⟨_, hleft, ?_, ⟨h.timeout, ?_, ?_⟩, r.heard, ?_, hreport⟩
  · rw [put, List.length_set]
  · change s.desk.leave b.ticket = _
    rw [h.desk]
    rfl
  · have halive : (x.settle b).2.alive.map BackgroundBuild.caller =
        (s.callers.filter Caller.inside).filter fun c => c.ticket.number != b.ticket.number := by
      rw [h.inside, List.filter_map]
      rfl
    rw [halive, put, hset]
    exact hsound.filter_inside few hcallers b.inside_caller rfl
  · rw [put, hset]
    exact List.mem_append_right _ List.mem_cons_self

/-- The build that holds the desk cancelled. -/
theorem Shows.cancel (h : Shows timeout s x) (hsound : Sound s) (few : s.callers.length < 2 ^ 64) :
    Shows timeout s.cancel x.cancel.2 := by
  cases hholder : s.desk.holder with
  | none =>
    rw [cancel_of_free hholder]
    rw [BuildSession.cancel, Desk.cancel, ← h.desk, hholder]
    exact h
  | some t =>
    rw [cancel_of_held hholder, BuildSession.cancel, Desk.cancel, ← h.desk, hholder]
    refine ⟨h.timeout, rfl, ?_⟩
    -- among those who are there, the number alone says whose ticket it is
    have hsame (b : BackgroundBuild) (hb : b ∈ x.alive) : b.ticket = t ↔ b.ticket.number = t.number := by
      refine ⟨congrArg Ticket.number, fun hnumber => ?_⟩
      obtain ⟨i, c, hc, -, rfl⟩ := hsound.held t hholder
      have hmem : b.caller ∈ s.callers.filter Caller.inside := by
        rw [h.inside]
        exact List.mem_map_of_mem hb
      obtain ⟨j, hj⟩ := List.mem_iff_getElem?.mp (List.mem_filter.mp hmem).1
      obtain rfl := hsound.unique few hj hc hnumber
      exact congrArg Caller.ticket (Option.some.inj (hj.symm.trans hc))
    have hinside : (Caller.inside ∘ fun c => if c.ticket = t then c.callOff else c) = Caller.inside := by
      funext c
      rw [Function.comp_apply]
      split
      · exact c.inside_callOff
      · rfl
    rw [List.filter_map, hinside, h.inside, List.map_map, List.map_map]
    refine List.map_congr_left fun b hb => ?_
    simp only [Function.comp_apply]
    by_cases hticket : b.ticket = t
    · rw [b.ticket_caller, if_pos hticket, if_pos ((hsame b hb).mp hticket)]
      rfl
    · rw [b.ticket_caller, if_neg hticket, if_neg fun hnumber => hticket ((hsame b hb).mpr hnumber)]

/-- Whatever was kept of builds that have ended shows nowhere. -/
theorem Shows.keep (h : Shows timeout s x) (ended : List (Ticket × BuildResult)) :
    Shows timeout s { x with ended := ended } := ⟨h.timeout, h.desk, h.inside⟩

theorem Shows.wait (h : Shows timeout s x) (hsound : Sound s) (few : s.callers.length < 2 ^ 64) (t : Ticket) :
    ∃ s', Relation.ReflTransGen (Step timeout) s s' ∧ s'.callers.length = s.callers.length ∧
      Shows timeout s' (x.wait t).2 := by
  rw [BuildSession.wait]
  split
  · exact ⟨s, .refl, rfl, h.keep _⟩
  · rename_i b hb
    obtain ⟨s', hsteps, hlength, hshows, -⟩ := h.settle hsound few (List.mem_of_find?_eq_some hb)
    exact ⟨s', hsteps, hlength, hshows⟩

theorem Shows.nodup_number (h : Shows timeout s x) (hsound : Sound s) (few : s.callers.length < 2 ^ 64) :
    (x.alive.map fun b => b.ticket.number).Nodup := by
  have hcallers : (x.alive.map BackgroundBuild.caller).map (fun c => c.ticket.number) =
      x.alive.map fun b => b.ticket.number := by
    rw [List.map_map]
    rfl
  rw [← hcallers, ← h.inside]
  exact (List.filter_sublist.map _).nodup (hsound.nodup_number few)

/-- Several builds waited for, one after the other. -/
theorem Shows.settleAll {bs : List BackgroundBuild} (h : Shows timeout s x) (hreach : Reachable timeout s)
    (few : s.callers.length < 2 ^ 64) (hbs : bs.Sublist x.alive) :
    ∃ s', Relation.ReflTransGen (Step timeout) s s' ∧ s'.callers.length = s.callers.length ∧
      Shows timeout s' (bs.foldl (fun x b =>
        { (x.settle b).2 with ended := (x.settle b).2.ended ++ [(b.ticket, (x.settle b).1)] }) x) := by
  induction bs generalizing s x with
  | nil => exact ⟨s, .refl, rfl, h⟩
  | cons b bs ih =>
    have hsound := hreach.sound few
    obtain ⟨s', hsteps, hlength, hshows, -⟩ := h.settle hsound few (hbs.subset List.mem_cons_self)
    -- the others are still there, since their numbers are different
    have hnodup := (hbs.map _).nodup (h.nodup_number hsound few)
    rw [List.map_cons, List.nodup_cons] at hnodup
    have hothers : bs.filter (fun a => a.ticket.number != b.ticket.number) = bs :=
      List.filter_eq_self.mpr fun a ha => bne_iff_ne.mpr fun heq => hnodup.1 (heq ▸ List.mem_map_of_mem ha)
    have hbs' : bs.Sublist (x.settle b).2.alive := by
      rw [← hothers]
      exact ((List.sublist_cons_self b bs).trans hbs).filter _
    obtain ⟨s'', hsteps', hlength', hshows'⟩ := ih
      (hshows.keep ((x.settle b).2.ended ++ [(b.ticket, (x.settle b).1)])) (hreach.trans hsteps)
      (hlength ▸ few) hbs'
    exact ⟨s'', hsteps.trans hsteps', hlength'.trans hlength, hshows'⟩

/-- A build asked for and waited for. -/
theorem Shows.run (h : Shows timeout s x) (hreach : Reachable timeout s) (few : s.callers.length + 1 < 2 ^ 64)
    (root : Path) (preset : Preset) (action : BuildAction) : ∃ s', Relation.ReflTransGen (Step timeout) s s' ∧
      s'.callers.length ≤ s.callers.length + 1 ∧ Shows timeout s' (x.run root preset action).2 := by
  obtain ⟨s', hsteps, hlength, hshows⟩ := h.start root preset action
  rw [BuildSession.run]
  generalize x.start root preset action = started at hshows ⊢
  obtain ⟨outcome, x'⟩ := started
  cases outcome with
  | refused e => exact ⟨s', hsteps, hlength, hshows⟩
  | ended r => exact ⟨s', hsteps, hlength, hshows⟩
  | running t =>
    -- those that were cancelled end first, and then the one that was just started
    have hreach' := hreach.trans hsteps
    obtain ⟨s'', hsteps', hlength', hshows'⟩ := hshows.settleAll hreach' (by omega) List.filter_sublist
    obtain ⟨waited, hsteps'', hlength'', hshows''⟩ := hshows'.wait
      (Reachable.sound (hreach'.trans hsteps') (by omega)) (by omega) t
    refine ⟨waited, (hsteps.trans hsteps').trans hsteps'', by omega, ?_⟩
    change Shows timeout waited (x'.settleCancelled.wait t).2 at hshows''
    dsimp only
    split <;> rename_i heq <;> rw [heq] at hshows'' <;> exact hshows''

end Hall

namespace BuildSession

/-- What somebody can ask a session for. -/
inductive Request where
  | start (root : Path) (preset : Preset) (action : BuildAction)
  | wait (t : Ticket)
  | run (root : Path) (preset : Preset) (action : BuildAction)
  | cancel

/-- A session after a request. -/
def serve (x : BuildSession) : Request → BuildSession
  | .start root preset action => (x.start root preset action).2
  | .wait t => (x.wait t).2
  | .run root preset action => (x.run root preset action).2
  | .cancel => x.cancel.2

/-- **One request**: a hall that shows a session can come to show it after the request. -/
theorem exists_serve {timeout : Nat} {s : Hall} {x : BuildSession} (h : s.Shows timeout x)
    (hreach : Hall.Reachable timeout s) (few : s.callers.length + 1 < 2 ^ 64) (request : Request) :
    ∃ s', Relation.ReflTransGen (Hall.Step timeout) s s' ∧
      s'.callers.length ≤ s.callers.length + 1 ∧ s'.Shows timeout (x.serve request) := by
  have hsound := hreach.sound (by omega)
  cases request with
  | start root preset action => exact h.start root preset action
  | wait t =>
    obtain ⟨s', hsteps, hlength, hshows⟩ := h.wait hsound (by omega) t
    exact ⟨s', hsteps, by omega, hshows⟩
  | run root preset action => exact h.run hreach few root preset action
  | cancel =>
    exact ⟨s.cancel, .single (.cancel s), Nat.le_succ_of_le (Nat.le_of_eq s.length_cancel),
      h.cancel hsound (by omega)⟩

/-- **Every session is shown by a hall** that can be reached, as long as it has served fewer than 2 ^ 64
requests. -/
theorem exists_hall (builder : Builder) (w : Workspace) (requests : List Request)
    (few : requests.length < 2 ^ 64) : ∃ s, Hall.Reachable builder.timeout s ∧ s.callers.length ≤ requests.length ∧
      s.Shows builder.timeout (requests.foldl serve { builder := builder, workspace := w }) := by
  induction requests using List.reverseRecOn with
  | nil => exact ⟨{}, .refl, Nat.le_refl _, rfl, rfl, rfl⟩
  | append_singleton requests request ih =>
    rw [List.length_append, List.length_singleton] at few ⊢
    obtain ⟨s, hreach, hlength, hshows⟩ := ih (by omega)
    obtain ⟨s', hsteps, hlength', hshows'⟩ := exists_serve hshows hreach (by omega) request
    rw [List.foldl_append, List.foldl_cons, List.foldl_nil]
    exact ⟨s', hreach.trans hsteps, by omega, hshows'⟩

/-- **The desk of a session** is held exactly if a build in the background was not cancelled, and there is only
one such build. -/
theorem isBusy_iff (builder : Builder) (w : Workspace) (requests : List Request)
    (few : requests.length < 2 ^ 64) :
    let x := requests.foldl serve { builder := builder, workspace := w }
    (x.desk.isBusy = true ↔ ∃ b ∈ x.alive, b.cancelled = false) ∧
    ∀ b ∈ x.alive, b.cancelled = false → x.desk.holder = some b.ticket := by
  obtain ⟨s, hreach, hlength, hshows⟩ := exists_hall builder w requests few
  intro x
  have hsound := hreach.sound (Nat.lt_of_le_of_lt hlength few)
  have hthere (b : BackgroundBuild) (hb : b ∈ x.alive) : ∃ i : Nat, s.callers[i]? = some b.caller := by
    have hmem : b.caller ∈ s.callers.filter Caller.inside := hshows.inside ▸ List.mem_map_of_mem hb
    exact List.mem_iff_getElem?.mp (List.mem_filter.mp hmem).1
  rw [← hshows.desk, hsound.isBusy_iff]
  refine ⟨⟨?_, ?_⟩, fun b hb hcancelled => ?_⟩
  · rintro ⟨i, c, hc, hinside, hcancelled⟩
    have hmem : c ∈ x.alive.map BackgroundBuild.caller :=
      hshows.inside ▸ List.mem_filter.mpr ⟨List.mem_of_getElem? hc, hinside⟩
    obtain ⟨b, hb, rfl⟩ := List.mem_map.mp hmem
    exact ⟨b, hb, hcancelled⟩
  · rintro ⟨b, hb, hcancelled⟩
    obtain ⟨i, hi⟩ := hthere b hb
    exact ⟨i, b.caller, hi, b.inside_caller, hcancelled⟩
  · obtain ⟨i, hi⟩ := hthere b hb
    exact hsound.holds i b.caller hi ⟨b.inside_caller, hcancelled⟩

end BuildSession

end BuildMender
