import BuildMender.Build.Builder
import BuildMender.Proofs.Build.Watch
import Mathlib.Logic.Relation

/-!
# Builds that race with their ends

While a build runs, five things go on at once: two readers send the lines of its two streams through one
channel, the process may end, a caller may cancel, and the time runs out. The watcher hears of one of them
at a time, in an order that nobody fixes. A `Race` is what has become of all of them at one moment, and
`Race.Step` is what can happen next; whichever of several things the watcher could hear may be the one.

What every step keeps is `BuildMender.Race.Sound`: the lines that were shown, with those still in the
channel, are the lines that were sent. Since the watch ends by itself only when the channel is empty and
nobody can send any more, it loses no line then; this and the rest of what a build reports is
`BuildMender.Builder.report_race`.
-/

namespace BuildMender

open Text

/-! ### The race -/

/-- What waiting for a process comes to. -/
inductive Race.Ending where
  | running
  /-- The process has ended; it has no exit code if it was killed. -/
  | ended (code : Option Int)
  /-- How it ended cannot be found out. -/
  | lost
deriving DecidableEq

/-- What has become of a process, of its two readers and of the one who watches them. -/
structure Race where
  /-- The readers that may still send lines. -/
  reading : List OutputStream := [.stdout, .stderr]
  /-- All lines that the readers have sent, in order. -/
  sent : List (OutputStream × Text) := []
  /-- The lines in the channel, which the watcher has not taken. -/
  channel : List (OutputStream × Text) := []
  /-- What waiting for the process comes to. -/
  ending : Race.Ending := .running
  /-- Whether somebody has cancelled the build. -/
  cancelled : Bool := false
  /-- Whether the time is up. -/
  timeOver : Bool := false
  /-- What the watcher has heard, in order. -/
  heard : List Signal := []

namespace Race

variable {timeout : Nat} {r r' : Race} {lines : List (OutputStream × Text)}

/-- The watch so far. -/
def watch (timeout : Nat) (r : Race) : Watch := Watch.observeAll timeout {} r.heard

/-- Something heard; a line is taken from the channel. -/
def hear (r : Race) (s : Signal) : Race :=
  { r with
    heard := r.heard ++ [s]
    channel := match s with
      | .line _ _ => r.channel.tail
      | _ => r.channel }

/-- What the watcher can hear: the next line while it listens to the streams, or that nobody can send any
more; the end of the process while it waits for it; and the two calls to stop. -/
def Ready (timeout : Nat) (r : Race) : Signal → Prop
  | .line stream line => (r.watch timeout).streamsOpen ∧ r.channel.head? = some (stream, line)
  | .closed => (r.watch timeout).streamsOpen ∧ r.channel = [] ∧ r.reading = []
  | .ended code => (r.watch timeout).status = none ∧ r.ending = .ended code
  | .lost => (r.watch timeout).status = none ∧ r.ending = .lost
  | .cancelled => r.cancelled
  | .timeUp => r.timeOver

/-- The build was called off. -/
def CalledOff (timeout : Nat) (r : Race) : Prop :=
  (r.watch timeout).termination = some .cancelled ∨ (r.watch timeout).termination = some .timedOut

/-- **What can happen next.** -/
inductive Step (timeout : Nat) : Race → Race → Prop where
  /-- A reader sends a line. -/
  | send (r : Race) (stream : OutputStream) (line : Text) (h : stream ∈ r.reading) :
      Step timeout r
        { r with sent := r.sent ++ [(stream, line)], channel := r.channel ++ [(stream, line)] }
  /-- A reader stops: its stream has ended, or it cannot read on. -/
  | stop (r : Race) (stream : OutputStream) :
      Step timeout r { r with reading := r.reading.erase stream }
  /-- The process ends, by itself or because it was killed, or can no longer be waited for. -/
  | ends (r : Race) (ending : Ending) (h : r.ending = .running) : Step timeout r { r with ending := ending }
  | cancel (r : Race) : Step timeout r { r with cancelled := true }
  | expire (r : Race) : Step timeout r { r with timeOver := true }
  /-- The watcher hears one of the things it can hear. -/
  | hear (r : Race) (s : Signal) (hrunning : (r.watch timeout).termination = none)
      (hready : r.Ready timeout s) : Step timeout r (r.hear s)
  /-- A process that was killed because the build was called off is waited for. -/
  | reap (r : Race) (code : Option Int) (hoff : r.CalledOff timeout)
      (hwait : (r.watch timeout).status = none) (h : r.ending = .ended code) :
      Step timeout r (r.hear (.ended code))

/-- What can come of a process that was just started. -/
def Reachable (timeout : Nat) (r : Race) : Prop := Relation.ReflTransGen (Step timeout) {} r

/-- **The race is over**: the watch has ended, and a process that was called off has been waited for. -/
def Over (timeout : Nat) (r : Race) : Prop :=
  (r.watch timeout).termination = some .exited ∨
    r.CalledOff timeout ∧ ((r.watch timeout).status.isSome ∨ r.ending = .lost)

theorem watch_hear (timeout : Nat) (r : Race) (s : Signal) :
    (r.hear s).watch timeout = (r.watch timeout).observe timeout s :=
  Watch.observeAll_concat timeout {} r.heard s

/-! ### What every race keeps -/

/-- **What holds at every moment**, for the lines that were shown: they and those in the channel are the
lines that were sent; the watcher stops listening to the streams only when there is nothing more to hear;
and it ends the watch by itself only when it also knows how the process ended, or cannot find that out. -/
structure Sound (timeout : Nat) (r : Race) (lines : List (OutputStream × Text)) : Prop where
  faithful : (r.watch timeout).Faithful timeout lines
  sent : r.sent = lines ++ r.channel
  drained : (r.watch timeout).streamsOpen = false → r.channel = [] ∧ r.reading = []
  waited : ∀ code, (r.watch timeout).status = some code → r.ending = .ended code
  exited : (r.watch timeout).termination = some .exited →
    ((r.watch timeout).status.isSome ∧ (r.watch timeout).streamsOpen = false) ∨ r.ending = .lost
  started : (r.watch timeout).termination ≠ some .spawnFailed

theorem sound_start : Sound timeout {} [] where
  faithful := Watch.faithful_start
  sent := rfl
  drained h := by cases h
  waited _ h := by cases h
  exited h := by cases h
  started h := by cases h

/-- One thing heard while the watch goes on. -/
theorem Sound.hear (h : Sound timeout r lines) (hw : (r.watch timeout).termination = none) {s : Signal}
    (hready : r.Ready timeout s) :
    Sound timeout (r.hear s) (lines ++ (r.watch timeout).added s) := by
  have hfaithful := h.faithful.observe s
  rw [← watch_hear] at hfaithful
  have hwatch := watch_hear timeout r s
  rw [Watch.observe_of_none timeout hw] at hwatch
  cases s with
  | line stream line =>
    -- the line moves from the channel to those that are shown
    obtain ⟨hopen, hhead⟩ := hready
    obtain ⟨rest, hchannel⟩ : ∃ rest, r.channel = (stream, line) :: rest := by
      cases hc : r.channel with
      | nil => simp [hc] at hhead
      | cons l rest => exact ⟨rest, by simpa [hc] using hhead⟩
    simp only [hopen, if_true] at hwatch
    have hkept : ((r.watch timeout).addLine stream line).streamsOpen = true ∧
        ((r.watch timeout).addLine stream line).status = (r.watch timeout).status ∧
        ((r.watch timeout).addLine stream line).termination = none := by
      cases stream <;> exact ⟨hopen, rfl, hw⟩
    refine ⟨hfaithful, ?_, fun hd => ?_, fun code hs => ?_, fun he => ?_, fun hf => ?_⟩
    · simp only [Race.hear, Watch.added, hw, hopen, hchannel, h.sent]
      simp
    · rw [hwatch, hkept.1] at hd
      cases hd
    · rw [hwatch, hkept.2.1] at hs
      exact h.waited code hs
    · rw [hwatch, hkept.2.2] at he
      cases he
    · rw [hwatch, hkept.2.2] at hf
      cases hf
  | closed =>
    -- this is heard only when the channel is empty, so the watch may end
    obtain ⟨-, hchannel, hreading⟩ := hready
    replace hwatch := hwatch.trans
      (Watch.settle_eq (w := { r.watch timeout with streamsOpen := false }) hw)
    simp only [Watch.added, List.append_nil] at hfaithful ⊢
    refine ⟨hfaithful, h.sent, fun _ => ⟨hchannel, hreading⟩, fun code hs => ?_, fun he => ?_,
      fun hf => ?_⟩
    · rw [hwatch] at hs
      exact h.waited code hs
    · rw [hwatch] at he ⊢
      exact Or.inl ⟨by simpa [Option.isSome_iff_ne_none] using he, rfl⟩
    · rw [hwatch] at hf
      simp at hf
  | ended code =>
    -- the watch ends only if the streams were drained before
    obtain ⟨hstatus, hending⟩ := hready
    simp only [hstatus, Option.isSome_none, Bool.false_eq_true, if_false] at hwatch
    replace hwatch := hwatch.trans
      (Watch.settle_eq (w := { r.watch timeout with status := some code }) hw)
    simp only [Watch.added, List.append_nil] at hfaithful ⊢
    refine ⟨hfaithful, h.sent, fun hd => ?_, fun code' hs => ?_, fun he => ?_, fun hf => ?_⟩
    · rw [hwatch] at hd
      exact h.drained hd
    · rw [hwatch] at hs
      exact Option.some.inj hs ▸ hending
    · rw [hwatch] at he ⊢
      exact Or.inl ⟨rfl, by simpa using he⟩
    · rw [hwatch] at hf
      simp at hf
  | lost | cancelled | timeUp =>
    simp only [Watch.added, List.append_nil] at hfaithful ⊢
    refine ⟨hfaithful, h.sent, fun hd => ?_, fun code hs => ?_, fun he => ?_, fun hf => ?_⟩
    · rw [hwatch] at hd
      exact h.drained hd
    · rw [hwatch] at hs
      exact h.waited code hs
    · rw [hwatch] at he
      first
        | exact Or.inr hready.2
        | cases he
    · rw [hwatch] at hf
      cases hf

/-- The exit code of a process that was called off. -/
theorem watch_reap (code : Option Int) (hoff : r.CalledOff timeout)
    (hwait : (r.watch timeout).status = none) :
    (r.hear (.ended code)).watch timeout = { r.watch timeout with status := some code } := by
  have hsome : (r.watch timeout).termination.isSome := by rcases hoff with h | h <;> simp [h]
  have hexited : ((r.watch timeout).termination == some .exited) = false := by
    rcases hoff with h | h <;> rw [h] <;> rfl
  rw [watch_hear, Watch.observe_of_isSome timeout hsome, Watch.reap, hwait, hexited]
  rfl

/-- **One step**: what holds at every moment holds at the next. -/
theorem Sound.step (h : Sound timeout r lines) (hstep : Step timeout r r') :
    ∃ lines', Sound timeout r' lines' := by
  cases hstep with
  | send stream line hreading =>
    -- a reader that still sends has not been given up
    refine ⟨lines, h.faithful, ?_, fun hd => ?_, h.waited, h.exited, h.started⟩
    · simp only [h.sent, List.append_assoc]
    · rw [(h.drained hd).2] at hreading
      cases hreading
  | stop stream =>
    refine ⟨lines, h.faithful, h.sent, fun hd => ?_, h.waited, h.exited, h.started⟩
    obtain ⟨hchannel, hreading⟩ := h.drained hd
    exact ⟨hchannel, by rw [hreading]; rfl⟩
  | ends ending hrunning =>
    refine ⟨lines, h.faithful, h.sent, h.drained, fun code hs => ?_, fun he => ?_, h.started⟩
    · have := h.waited code hs
      rw [hrunning] at this
      cases this
    · rcases h.exited he with hdone | hlost
      · exact Or.inl hdone
      · rw [hrunning] at hlost
        cases hlost
  | cancel => exact ⟨lines, h.faithful, h.sent, h.drained, h.waited, h.exited, h.started⟩
  | expire => exact ⟨lines, h.faithful, h.sent, h.drained, h.waited, h.exited, h.started⟩
  | hear s hrunning hready => exact ⟨_, h.hear hrunning hready⟩
  | reap code hoff hwait hending =>
    have hwatch := watch_reap code hoff hwait
    refine ⟨lines, ?_, h.sent, fun hd => ?_, fun code' hs => ?_, fun he => ?_, fun hf => ?_⟩
    · rw [hwatch]
      exact h.faithful.congr rfl rfl rfl rfl
    · rw [hwatch] at hd
      exact h.drained hd
    · rw [hwatch] at hs
      exact Option.some.inj hs ▸ hending
    · rw [hwatch] at he
      rcases hoff with hoff | hoff <;> exact absurd (hoff.symm.trans he) (by simp)
    · rw [hwatch] at hf
      exact h.started hf

/-- **Every race**, however its parts interleave. -/
theorem Reachable.sound (h : Reachable timeout r) : ∃ lines, Sound timeout r lines := by
  induction h with
  | refl => exact ⟨[], sound_start⟩
  | tail _ hstep ih =>
    obtain ⟨lines, hlines⟩ := ih
    exact hlines.step hstep

/-! ### What is known at the end -/

/-- **When the process ended by itself** and that was found out, nothing that was sent is lost. -/
theorem Sound.of_exited (h : Sound timeout r lines) (hw : (r.watch timeout).termination = some .exited)
    {code : Option Int} (he : r.ending = .ended code) :
    (r.watch timeout).status = some code ∧ lines = r.sent ∧ r.reading = [] := by
  rcases h.exited hw with ⟨hstatus, hclosed⟩ | hlost
  · obtain ⟨code', hcode'⟩ := Option.isSome_iff_exists.mp hstatus
    obtain ⟨hchannel, hreading⟩ := h.drained hclosed
    have hsame := h.waited code' hcode'
    rw [he, Ending.ended.injEq] at hsame
    refine ⟨hsame ▸ hcode', ?_, hreading⟩
    rw [h.sent, hchannel, List.append_nil]
  · rw [he] at hlost
    cases hlost

/-- A race that ended by itself has exit code 0 if the process has. -/
theorem Sound.exitCode_eq_zero_iff (h : Sound timeout r lines)
    (hw : (r.watch timeout).termination = some .exited) :
    (r.watch timeout).exitCode = 0 ↔ r.ending = .ended (some 0) := by
  constructor
  · intro hcode
    rw [Watch.exitCode] at hcode
    cases hstatus : (r.watch timeout).status with
    | none =>
      rw [hstatus] at hcode
      cases hcode
    | some code =>
      rw [hstatus, Option.bind_some] at hcode
      cases code with
      | none => cases hcode
      | some n => exact (show n = 0 from hcode) ▸ h.waited _ hstatus
  · intro hending
    rw [Watch.exitCode, (h.of_exited hw hending).1]
    rfl

/-- **A call to stop** is the last thing that shows: what had been shown when it was heard is all. -/
theorem shown_of_call {before after : List Signal} {s : Signal} (hheard : r.heard = before ++ s :: after)
    (hs : s = .cancelled ∨ s = .timeUp) :
    (r.watch timeout).shown = (Watch.observeAll timeout {} before).shown := by
  have hall : r.watch timeout = Watch.observeAll timeout
      ((Watch.observeAll timeout {} before).observe timeout s) after := by
    rw [watch, hheard, Watch.observeAll_append]
    rfl
  obtain ⟨hended, hshown⟩ := Watch.observe_call timeout (Watch.observeAll timeout {} before) hs
  rw [hall, (Watch.observeAll_of_isSome hended after).1, hshown]

theorem Over.isSome (h : r.Over timeout) : (r.watch timeout).termination.isSome := by
  rcases h with h | ⟨h | h, -⟩ <;> simp [h]

/-! ### Every race can end -/

theorem over_reaped {code : Option Int} (hoff : r.CalledOff timeout)
    (hwait : (r.watch timeout).status = none) : (r.hear (.ended code)).Over timeout := by
  refine Or.inr ⟨?_, Or.inl ?_⟩
  · rw [CalledOff, watch_reap _ hoff hwait]
    exact hoff
  · rw [watch_reap _ hoff hwait]
    rfl

/-- A process that is called off is killed, so that it can be waited for. -/
theorem exists_killed (hoff : r.CalledOff timeout) (hwait : (r.watch timeout).status = none)
    (he : r.ending = .running) : ∃ r', Relation.ReflTransGen (Step timeout) r r' ∧ r'.Over timeout ∧
      r'.watch timeout = { r.watch timeout with status := some none } ∧ r'.cancelled = r.cancelled :=
  ⟨_, .tail (.single (.ends r (.ended none) he)) (.reap _ none hoff hwait rfl),
    over_reaped (r := { r with ending := .ended none }) hoff hwait,
    watch_reap (r := { r with ending := .ended none }) none hoff hwait, rfl⟩

theorem exists_over_of_calledOff (hoff : r.CalledOff timeout) :
    ∃ r', Relation.ReflTransGen (Step timeout) r r' ∧ r'.Over timeout := by
  cases hs : (r.watch timeout).status with
  | some code => exact ⟨r, .refl, Or.inr ⟨hoff, Or.inl (by rw [hs]; rfl)⟩⟩
  | none =>
    cases he : r.ending with
    | running =>
      obtain ⟨r', hr', hover, -⟩ := exists_killed hoff hs he
      exact ⟨r', hr', hover⟩
    | ended code => exact ⟨_, .single (.reap r code hoff hs he), over_reaped hoff hs⟩
    | lost => exact ⟨r, .refl, Or.inr ⟨hoff, Or.inr he⟩⟩

/-- **No race is stuck**: at the latest the time can run out, and then the process is killed. -/
theorem Reachable.exists_over (h : Reachable timeout r) :
    ∃ r', Relation.ReflTransGen (Step timeout) r r' ∧ r'.Over timeout := by
  obtain ⟨lines, hsound⟩ := h.sound
  cases ht : (r.watch timeout).termination with
  | none =>
    have hlate : Relation.ReflTransGen (Step timeout) r (Race.hear { r with timeOver := true } .timeUp) :=
      .tail (.single (.expire r)) (.hear _ .timeUp ht rfl)
    have hoff : (Race.hear { r with timeOver := true } .timeUp).CalledOff timeout := by
      refine Or.inr ?_
      rw [watch_hear]
      exact Watch.termination_timeUp ht
    obtain ⟨r', hr', hover⟩ := exists_over_of_calledOff hoff
    exact ⟨r', hlate.trans hr', hover⟩
  | some t =>
    cases t with
    | exited => exact ⟨r, .refl, Or.inl ht⟩
    | cancelled => exact exists_over_of_calledOff (Or.inl ht)
    | timedOut => exact exists_over_of_calledOff (Or.inr ht)
    | spawnFailed => exact absurd ht hsound.started

end Race

namespace Builder

variable {b : Builder} {preset : Preset} {action : BuildAction} {command : Text} {r : Race}

/-- When the race is over, that the time is up changes nothing. -/
theorem ofSignals_of_over (h : r.Over b.timeout) :
    Watch.ofSignals b.timeout r.heard = r.watch b.timeout := by
  rw [Watch.ofSignals, Watch.observeAll_concat]
  exact Watch.observe_of_isSome b.timeout h.isSome .timeUp

/-- **A build races with its end.** Whatever has happened, the race can come to its end, and whenever it
does, these are its events and its result: the build is started, the lines are shown one by one, the build
is finished; each stream of the result is the text of its lines, and a build that took too long has one more
line at the end of its error stream. If the process ended by itself and that was found out, the lines are all
that the readers ever sent, in their order. The build succeeded exactly if the process ended by itself with
exit code 0. And what had been shown when a call to stop was heard is all that was ever shown. -/
theorem report_race (h : r.Reachable b.timeout) :
    (∃ r', Relation.ReflTransGen (Race.Step b.timeout) r r' ∧ r'.Over b.timeout) ∧
    (r.Over b.timeout → ∃ (result : BuildResult) (lines : List (OutputStream × Text)),
      b.report preset action command (.ok r.heard) = (result,
        startedEvent preset action command ::
          (lines.map (fun l => .output l.1 l.2) ++ [finishedEvent result])) ∧
      result.stdout = Watch.textOf .stdout lines ∧
      result.stderr = Watch.textOf .stderr lines ++
        (if result.termination = .timedOut then Watch.timeoutMessage b.timeout else []) ∧
      (∀ code, result.termination = .exited → r.ending = .ended code →
        lines = r.sent ∧ r.reading = [] ∧ result.exitCode = code.getD noExitCode) ∧
      (result.success = true ↔ result.termination = .exited ∧ r.ending = .ended (some 0)) ∧
      ∀ before s after, r.heard = before ++ s :: after → s = .cancelled ∨ s = .timeUp →
        lines.map (fun l => .output l.1 l.2) = (Watch.observeAll b.timeout {} before).shown) := by
  refine ⟨h.exists_over, fun hover => ?_⟩
  obtain ⟨lines, hsound⟩ := h.sound
  have hwatch := ofSignals_of_over hover
  obtain ⟨t, ht⟩ := Option.isSome_iff_exists.mp hover.isSome
  have htermination : (resultOf preset action command (r.watch b.timeout)).termination = t := by
    simp [resultOf, ht]
  refine ⟨resultOf preset action command (r.watch b.timeout), lines, ?_, hsound.faithful.stdout, ?_, ?_, ?_,
    fun before s after hheard hs => ?_⟩
  · rw [report, hwatch, conclude, hsound.faithful.shown]
  · have hstderr := hsound.faithful.stderr
    simp only [resultOf, ht, Option.getD_some] at hstderr ⊢
    rw [hstderr, Watch.notice]
    simp
  · intro code hexited hending
    obtain ⟨hstatus, hlines, hreading⟩ :=
      hsound.of_exited (ht.trans (congrArg some (htermination.symm.trans hexited))) hending
    refine ⟨hlines, hreading, ?_⟩
    simp only [resultOf, Watch.exitCode, hstatus, Option.bind_some, id]
  · have hsuccess : (resultOf preset action command (r.watch b.timeout)).success = true ↔
        t = .exited ∧ (r.watch b.timeout).exitCode = 0 := by
      simp [resultOf, ht]
    rw [hsuccess, htermination]
    exact and_congr_right fun hexited => hsound.exitCode_eq_zero_iff (ht.trans (congrArg some hexited))
  · rw [← hsound.faithful.shown, Race.shown_of_call hheard hs]

/-- A race in which a line is still in the channel when the watcher hears that the process has ended. -/
def lateLine : Race where
  reading := []
  sent := [(.stdout, "a")]
  channel := []
  ending := .ended (some 0)
  heard := [.ended (some 0), .line .stdout "a", .closed]

theorem reachable_lateLine (timeout : Nat) : lateLine.Reachable timeout := by
  have hstart : Relation.ReflTransGen (Race.Step timeout) {}
      { reading := [], sent := [(.stdout, "a")], channel := [(.stdout, "a")],
        ending := .ended (some 0) } :=
    .tail (.tail (.tail (.tail .refl (.send _ .stdout "a" (by decide))) (.ends _ (.ended (some 0)) rfl))
      (.stop _ .stdout)) (.stop _ .stderr)
  exact ((hstart.tail (.hear _ (.ended (some 0)) rfl ⟨rfl, rfl⟩)).tail
    (.hear _ (.line .stdout "a") rfl ⟨rfl, rfl⟩)).tail (.hear _ .closed rfl ⟨rfl, rfl, rfl⟩)

/-- A preset that builds with one word. -/
def makePreset : Preset :=
  { id := "linux", configure := "cmake", build := "make", buildDir := ("build" : Path) }

/-- The line is shown nevertheless, and the build succeeded. -/
theorem report_lateLine : ∃ (result : BuildResult) (lines : List (OutputStream × Text)),
    ({} : Builder).report makePreset .build "make" (.ok lateLine.heard) = (result,
      startedEvent makePreset .build "make" ::
        (lines.map (fun l => .output l.1 l.2) ++ [finishedEvent result])) ∧
    lines = lateLine.sent ∧ result.success = true := by
  have hover : lateLine.Over ({} : Builder).timeout := Or.inl rfl
  obtain ⟨result, lines, hreport, -, -, hwaited, hsuccess, -⟩ :=
    (@report_race {} makePreset .build "make" lateLine (reachable_lateLine _)).2 hover
  have hexited : result.termination = .exited := congrArg (fun p => p.1.termination) hreport.symm
  exact ⟨result, lines, hreport, (hwaited _ hexited rfl).1, hsuccess.mpr ⟨hexited, rfl⟩⟩

end Builder

end BuildMender
