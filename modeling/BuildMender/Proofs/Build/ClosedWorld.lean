import BuildMender.Proofs.Build.Race

/-!
# Processes that ran in a closed world

A process whose record is complete has not been watched while it ran. What is then taken for heard is one of
the orders in which a race with its end can be heard (`BuildMender.Builder.exists_race_ofRecord`): all that
was written in time, then whether its streams and it have ended, and if they have not, that the time is up.
So whatever holds of every race holds of it.
-/

namespace BuildMender

namespace Race

variable {timeout : Nat} {r : Race}

/-- A race in which the process is running and every line that was sent has been heard. -/
structure Listening (timeout : Nat) (r : Race) : Prop where
  termination : (r.watch timeout).termination = none
  streamsOpen : (r.watch timeout).streamsOpen = true
  status : (r.watch timeout).status = none
  channel : r.channel = []
  reading : r.reading = [.stdout, .stderr]
  ending : r.ending = .running
  cancelled : r.cancelled = false

theorem listening_start (timeout : Nat) : Listening timeout {} := ⟨rfl, rfl, rfl, rfl, rfl, rfl, rfl⟩

/-- Lines that are sent one by one are heard one by one. -/
theorem Listening.exists_lines (h : Listening timeout r) {stream : OutputStream} {ss : List Signal}
    (hss : ∀ s ∈ ss, ∃ line, s = .line stream line) :
    ∃ r', Relation.ReflTransGen (Step timeout) r r' ∧ Listening timeout r' ∧
      r'.heard = r.heard ++ ss := by
  induction ss generalizing r with
  | nil => exact ⟨r, .refl, h, (List.append_nil _).symm⟩
  | cons s ss ih =>
    obtain ⟨line, rfl⟩ := hss s List.mem_cons_self
    have hreading : stream ∈ r.reading := by rw [h.reading]; cases stream <;> decide
    obtain ⟨q, hq⟩ : ∃ q : Race, q =
      { r with sent := r.sent ++ [(stream, line)], channel := r.channel ++ [(stream, line)] } := ⟨_, rfl⟩
    have hsame : q.watch timeout = r.watch timeout := by rw [hq]; rfl
    have hchannel : q.channel = [(stream, line)] := by rw [hq]; simp [h.channel]
    have hsend : Step timeout r q := hq ▸ .send r stream line hreading
    have hhear : Step timeout q (q.hear (.line stream line)) :=
      .hear q _ (hsame ▸ h.termination) ⟨hsame ▸ h.streamsOpen, by rw [hchannel]; rfl⟩
    have hwatch : (q.hear (.line stream line)).watch timeout = (r.watch timeout).addLine stream line := by
      rw [watch_hear, hsame, Watch.observe_of_none timeout h.termination]
      simp only [h.streamsOpen, if_true]
    have hnext : Listening timeout (q.hear (.line stream line)) := by
      refine ⟨?_, ?_, ?_, ?_, by rw [← h.reading, hq]; rfl, by rw [← h.ending, hq]; rfl,
        by rw [← h.cancelled, hq]; rfl⟩
      · rw [hwatch]
        cases stream <;> exact h.termination
      · rw [hwatch]
        cases stream <;> exact h.streamsOpen
      · rw [hwatch]
        cases stream <;> exact h.status
      · simp only [Race.hear, hchannel, List.tail_cons]
    obtain ⟨r', hsteps, hlast, hheard⟩ := ih hnext fun s hs => hss s (List.mem_cons_of_mem _ hs)
    refine ⟨r', .head hsend (.head hhear hsteps), hlast, ?_⟩
    rw [hheard, List.append_cons, hq]
    rfl

/-- Only lines of a stream are delivered of it. -/
theorem exists_line_of_mem_delivered (record : Host.Record) (stream : OutputStream) {s : Signal}
    (h : s ∈ Signal.delivered record stream) : ∃ line, s = .line stream line := by
  rw [Signal.delivered] at h
  generalize (if record.isClosed stream then _ else _) = ls at h
  induction ls with
  | nil => cases h
  | cons l more ih =>
    rw [Signal.linesOf] at h
    split at h
    · cases h
    · rcases List.mem_cons.mp h with rfl | h
      · exact ⟨_, rfl⟩
      · exact ih h

/-- The time runs out. -/
theorem exists_timeUp (hw : (r.watch timeout).termination = none) :
    ∃ r', Relation.ReflTransGen (Step timeout) r r' ∧ r'.CalledOff timeout ∧
      (r'.watch timeout).status = (r.watch timeout).status ∧ r'.ending = r.ending ∧
      r'.heard = r.heard ++ [.timeUp] ∧ r'.cancelled = r.cancelled := by
  have hwatch : (Race.hear { r with timeOver := true } .timeUp).watch timeout =
      (r.watch timeout).observe timeout .timeUp := watch_hear timeout _ .timeUp
  refine ⟨_, .tail (.single (.expire r)) (.hear _ .timeUp hw rfl), Or.inr ?_, ?_, rfl, rfl, rfl⟩
  · rw [hwatch]
    exact Watch.termination_timeUp hw
  · rw [hwatch, Watch.observe_of_none timeout hw]

/-- Both streams end before the process does. -/
theorem Listening.exists_closed (h : Listening timeout r) :
    ∃ r', Relation.ReflTransGen (Step timeout) r r' ∧ (r'.watch timeout).termination = none ∧
      (r'.watch timeout).status = none ∧ (r'.watch timeout).streamsOpen = false ∧ r'.ending = .running ∧
      r'.heard = r.heard ++ [.closed] ∧ r'.cancelled = false := by
  obtain ⟨q, hq⟩ : ∃ q : Race, q = { r with reading := (r.reading.erase .stdout).erase .stderr } :=
    ⟨_, rfl⟩
  have hsame : q.watch timeout = r.watch timeout := by rw [hq]; rfl
  have hsteps : Relation.ReflTransGen (Step timeout) r q :=
    hq ▸ .tail (.single (.stop r .stdout)) (.stop _ .stderr)
  have hhear : Step timeout q (q.hear .closed) := by
    refine .hear q .closed (hsame ▸ h.termination) ⟨hsame ▸ h.streamsOpen, ?_, ?_⟩
    · rw [hq]
      exact h.channel
    · rw [hq, h.reading]
      rfl
  have hwatch : (q.hear .closed).watch timeout = { r.watch timeout with streamsOpen := false } := by
    rw [watch_hear, hsame, Watch.observe_of_none timeout h.termination]
    exact if_neg (by simp [h.status])
  refine ⟨_, .tail hsteps hhear, ?_, ?_, ?_, by rw [← h.ending, hq]; rfl, by rw [hq]; rfl,
    by rw [← h.cancelled, hq]; rfl⟩
  · rw [hwatch]
    exact h.termination
  · rw [hwatch]
    exact h.status
  · rw [hwatch]

/-- The process ends. -/
theorem exists_ended (hw : (r.watch timeout).termination = none) (hs : (r.watch timeout).status = none)
    (he : r.ending = .running) (code : Option Int) :
    ∃ r', Relation.ReflTransGen (Step timeout) r r' ∧
      (r'.watch timeout).termination =
        (if (r.watch timeout).streamsOpen then none else some .exited) ∧
      (r'.watch timeout).status = some code ∧ r'.heard = r.heard ++ [.ended code] ∧
      r'.cancelled = r.cancelled := by
  obtain ⟨q, hq⟩ : ∃ q : Race, q = { r with ending := .ended code } := ⟨_, rfl⟩
  have hsame : q.watch timeout = r.watch timeout := by rw [hq]; rfl
  have hhear : Step timeout q (q.hear (.ended code)) :=
    .hear q _ (hsame ▸ hw) ⟨hsame ▸ hs, by rw [hq]⟩
  have hwatch : (q.hear (.ended code)).watch timeout =
      Watch.settle { r.watch timeout with status := some code } := by
    rw [watch_hear, hsame, Watch.observe_of_none timeout hw]
    exact if_neg (by simp [hs])
  rw [Watch.settle_eq (w := { r.watch timeout with status := some code }) hw] at hwatch
  refine ⟨_, .head (hq ▸ .ends r _ he) (.single hhear), ?_, ?_, by rw [hq]; rfl, by rw [hq]; rfl⟩
  · rw [hwatch]
    cases (r.watch timeout).streamsOpen <;> rfl
  · rw [hwatch]

end Race

namespace Builder

variable {preset : Preset} {action : BuildAction} {command : Text}

/-- A process that was killed has no exit code, and then it makes no difference to have waited for it. -/
theorem conclude_killed {w : Watch} (h : w.status = none) :
    conclude preset action command { w with status := some none } = conclude preset action command w := by
  have hcode : Watch.exitCode { w with status := some none } = w.exitCode := by
    rw [Watch.exitCode, Watch.exitCode, h]
    rfl
  simp only [conclude, resultOf, diagnosticsOf, hcode]

/-- **A process that ran in a closed world** raced with its end: all its lines are heard first, then whether
its streams and it have ended in time, and else that the time is up. -/
theorem exists_race_ofRecord (b : Builder) (record : Host.Record) :
    ∃ r : Race, r.Reachable b.timeout ∧ r.Over b.timeout ∧ r.cancelled = false ∧ ∀ preset action command,
      b.report preset action command (.ok r.heard) =
        b.report preset action command (.ok (Signal.ofRecord record)) := by
  obtain ⟨r₁, hsteps₁, hlisten₁, hheard₁⟩ := (Race.listening_start b.timeout).exists_lines
    fun _ hs => Race.exists_line_of_mem_delivered record .stdout hs
  obtain ⟨r₂, hsteps₂, hlisten₂, hheard₂⟩ := hlisten₁.exists_lines
    fun _ hs => Race.exists_line_of_mem_delivered record .stderr hs
  -- whether both streams ended in time
  obtain ⟨r₃, hsteps₃, hnone₃, hstatus₃, hending₃, hheard₃, hcalm₃⟩ :
      ∃ r₃, Relation.ReflTransGen (Race.Step b.timeout) {} r₃ ∧
        (r₃.watch b.timeout).termination = none ∧ (r₃.watch b.timeout).status = none ∧
        r₃.ending = .running ∧
        r₃.heard = Signal.delivered record .stdout ++ Signal.delivered record .stderr ++
          (if record.isClosed .stdout && record.isClosed .stderr then [.closed] else []) ∧
        r₃.cancelled = false := by
    have hsteps := hsteps₁.trans hsteps₂
    rw [hheard₁, List.nil_append] at hheard₂
    split
    · obtain ⟨r₃, hsteps₃, hnone, hstatus, -, hending, hheard, hcalm⟩ := hlisten₂.exists_closed
      exact ⟨r₃, hsteps.trans hsteps₃, hnone, hstatus, hending, by rw [hheard, hheard₂], hcalm⟩
    · exact ⟨r₂, hsteps, hlisten₂.termination, hlisten₂.status, hlisten₂.ending,
        by rw [hheard₂, List.append_nil], hlisten₂.cancelled⟩
  have hofRecord : Signal.ofRecord record = r₃.heard ++
      if record.ending = .late then [] else [.ended (record.exitCode?.map Int.ofNat)] := by
    rw [hheard₃]
    rfl
  rw [hofRecord]
  by_cases hlate : record.ending = .late
  · -- the time runs out, and the process is killed
    obtain ⟨r₄, hsteps₄, hoff, hstatus, hending, hheard₄, hcalm₄⟩ := Race.exists_timeUp hnone₃
    rw [hstatus₃] at hstatus
    rw [hending₃] at hending
    obtain ⟨r₅, hsteps₅, hover, hkilled, hcalm₅⟩ := Race.exists_killed hoff hstatus hending
    have hwatch : r₄.watch b.timeout = Watch.ofSignals b.timeout r₃.heard := by
      rw [Race.watch, hheard₄]
      rfl
    rw [hwatch] at hkilled hstatus
    refine ⟨r₅, (hsteps₃.trans hsteps₄).trans hsteps₅, hover, by rw [hcalm₅, hcalm₄, hcalm₃],
      fun preset action command => ?_⟩
    rw [if_pos hlate, List.append_nil]
    simp only [report, ofSignals_of_over hover, hkilled, conclude_killed hstatus]
  · rw [if_neg hlate]
    obtain ⟨r₄, hsteps₄, htermination, hstatus, hheard₄, hcalm₄⟩ :=
      Race.exists_ended hnone₃ hstatus₃ hending₃ (record.exitCode?.map Int.ofNat)
    rw [← hheard₄]
    by_cases hopen : (r₃.watch b.timeout).streamsOpen
    · rw [if_pos hopen] at htermination
      obtain ⟨r₅, hsteps₅, hoff, hstatus', -, hheard₅, hcalm₅⟩ := Race.exists_timeUp htermination
      have hover : r₅.Over b.timeout := Or.inr ⟨hoff, Or.inl (by rw [hstatus', hstatus]; rfl)⟩
      have hwatch : r₅.watch b.timeout = Watch.ofSignals b.timeout r₄.heard := by
        rw [Race.watch, hheard₅]
        rfl
      refine ⟨r₅, (hsteps₃.trans hsteps₄).trans hsteps₅, hover, by rw [hcalm₅, hcalm₄, hcalm₃],
        fun preset action command => ?_⟩
      simp only [report, ofSignals_of_over hover, hwatch]
    · rw [if_neg hopen] at htermination
      exact ⟨r₄, hsteps₃.trans hsteps₄, Or.inl htermination, by rw [hcalm₄, hcalm₃], fun _ _ _ => rfl⟩

end Builder

end BuildMender
