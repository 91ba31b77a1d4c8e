import BuildMender.Build.Watch

/-!
# What the watcher of a process writes down

The lines that the watcher of a process shows and those that it writes down are the same, whatever it hears
and in whatever order (`BuildMender.Watch.Faithful`). Hearing one thing keeps this
(`BuildMender.Watch.Faithful.observe`), since only a line adds to both, and only that the time is up adds to
what is written alone. Once the watch has ended, nothing more is shown
(`BuildMender.Watch.observeAll_of_isSome`).
-/

namespace BuildMender

open Text

namespace Watch

variable {timeout : Nat} {w : Watch} {s : Signal} {lines : List (OutputStream × Text)}

/-- The lines of one stream as text. -/
def textOf (stream : OutputStream) (lines : List (OutputStream × Text)) : Text :=
  ((lines.filter fun l => l.1 == stream).map fun l => l.2 ++ ['\n']).flatten

theorem textOf_concat (stream : OutputStream) (lines : List (OutputStream × Text))
    (l : OutputStream × Text) : textOf stream (lines ++ [l]) =
      textOf stream lines ++ if l.1 = stream then l.2 ++ ['\n'] else [] := by
  rw [textOf, textOf, List.filter_append, List.map_append, List.flatten_append]
  by_cases h : l.1 = stream <;> simp [h]

/-- The message that a build took too long, if that is how it ended. -/
def notice (timeout : Nat) (t : Option Termination) : Text :=
  if t = some .timedOut then timeoutMessage timeout else []

/-- **Writing down what is shown**: some lines are shown one by one, each stream is the text of its lines,
and only a build that took too long has one more line at the end of its error stream. -/
structure Faithful (timeout : Nat) (w : Watch) (lines : List (OutputStream × Text)) : Prop where
  shown : w.shown = lines.map fun l => .output l.1 l.2
  stdout : w.stdout = textOf .stdout lines
  stderr : w.stderr = textOf .stderr lines ++ notice timeout w.termination

theorem faithful_start : Faithful timeout {} [] := ⟨rfl, rfl, rfl⟩

theorem Faithful.addLine (h : Faithful timeout w lines) (hw : w.termination = none)
    (l : OutputStream × Text) : Faithful timeout (w.addLine l.1 l.2) (lines ++ [l]) := by
  obtain ⟨stream, line⟩ := l
  have hstderr := h.stderr
  rw [hw] at hstderr
  cases stream <;> refine ⟨?_, ?_, ?_⟩ <;>
    simp [Watch.addLine, textOf_concat, h.shown, h.stdout, hstderr, hw, notice]

/-- What is written down is not changed by how the process ended. -/
theorem Faithful.congr {w' : Watch} (h : Faithful timeout w lines) (hshown : w'.shown = w.shown)
    (hstdout : w'.stdout = w.stdout) (hstderr : w'.stderr = w.stderr)
    (htermination : notice timeout w'.termination = notice timeout w.termination) :
    Faithful timeout w' lines := by
  refine ⟨hshown.trans h.shown, hstdout.trans h.stdout, ?_⟩
  rw [hstderr, htermination]
  exact h.stderr

/-! ### Hearing one thing after another -/

theorem settle_eq (hw : w.termination = none) : w.settle =
    { w with termination := if w.status.isSome && !w.streamsOpen then some .exited else none } := by
  rw [settle]
  split
  · rfl
  · rw [← hw]

theorem exists_reap (w : Watch) (s : Signal) : ∃ status, w.reap s = { w with status := status } := by
  unfold reap
  split
  · split
    · exact ⟨w.status, rfl⟩
    · exact ⟨_, rfl⟩
  · exact ⟨w.status, rfl⟩

theorem observe_of_isSome (timeout : Nat) (hw : w.termination.isSome) (s : Signal) :
    observe timeout w s = w.reap s := by
  unfold observe
  exact if_pos hw

/-- While the watch goes on, what is heard counts. -/
theorem observe_of_none (timeout : Nat) (hw : w.termination = none) (s : Signal) : observe timeout w s =
    match s with
    | .line stream text => if w.streamsOpen then w.addLine stream text else w
    | .closed => settle { w with streamsOpen := false }
    | .ended code => if w.status.isSome then w else settle { w with status := some code }
    | .lost => { w with termination := some .exited }
    | .cancelled => { w with termination := some .cancelled }
    | .timeUp =>
      { w with termination := some .timedOut, stderr := w.stderr ++ timeoutMessage timeout } := by
  have hnone : ¬w.termination.isSome := by simp [hw]
  unfold observe
  exact if_neg hnone

/-- When the watch has ended, only the exit code may still become known. -/
theorem exists_observe (timeout : Nat) (hw : w.termination.isSome) (s : Signal) :
    ∃ status, observe timeout w s = { w with status := status } := by
  rw [observe_of_isSome timeout hw]
  exact exists_reap w s

theorem observeAll_concat (timeout : Nat) (w : Watch) (ss : List Signal) (s : Signal) :
    observeAll timeout w (ss ++ [s]) = observe timeout (observeAll timeout w ss) s := by
  rw [observeAll, List.foldl_append]
  rfl

theorem observeAll_append (timeout : Nat) (w : Watch) (ss ss' : List Signal) :
    observeAll timeout w (ss ++ ss') = observeAll timeout (observeAll timeout w ss) ss' :=
  List.foldl_append

/-- **When the watch has ended**, nothing more is shown, and it does not end otherwise. -/
theorem observeAll_of_isSome (hw : w.termination.isSome) (ss : List Signal) :
    (observeAll timeout w ss).shown = w.shown ∧ (observeAll timeout w ss).termination = w.termination := by
  induction ss generalizing w with
  | nil => exact ⟨rfl, rfl⟩
  | cons s ss ih =>
    obtain ⟨status, hstep⟩ := exists_observe timeout hw s
    have hrest : observeAll timeout w (s :: ss) = observeAll timeout { w with status := status } ss := by
      rw [← hstep]
      rfl
    rw [hrest]
    exact ih (w := { w with status := status }) hw

theorem termination_timeUp (hw : w.termination = none) :
    (observe timeout w .timeUp).termination = some .timedOut := by
  rw [observe_of_none timeout hw]

/-- A call to stop ends the watch, if it has not ended, and shows nothing. -/
theorem observe_call (timeout : Nat) (w : Watch) {s : Signal} (hs : s = .cancelled ∨ s = .timeUp) :
    (observe timeout w s).termination.isSome ∧ (observe timeout w s).shown = w.shown := by
  by_cases hw : w.termination.isSome
  · obtain ⟨status, hstep⟩ := exists_observe timeout hw s
    rw [hstep]
    exact ⟨hw, rfl⟩
  · rw [observe_of_none timeout (by simpa using hw)]
    rcases hs with rfl | rfl <;> exact ⟨rfl, rfl⟩

theorem settle_ne_spawnFailed (hw : w.termination = none) : w.settle.termination ≠ some .spawnFailed := by
  rw [settle_eq hw]
  dsimp only
  split <;> simp

/-- Only a process that could not be started is reported as one. -/
theorem observe_ne_spawnFailed (h : w.termination ≠ some .spawnFailed) (s : Signal) :
    (observe timeout w s).termination ≠ some .spawnFailed := by
  by_cases hw : w.termination.isSome
  · obtain ⟨status, hstep⟩ := exists_observe timeout hw s
    rw [hstep]
    exact h
  · have hw : w.termination = none := by simpa using hw
    rw [observe_of_none timeout hw]
    cases s with
    | line stream text =>
      dsimp only
      split
      · cases stream <;> exact h
      · exact h
    | closed => exact settle_ne_spawnFailed (w := { w with streamsOpen := false }) hw
    | ended code =>
      dsimp only
      split
      · exact h
      · exact settle_ne_spawnFailed (w := { w with status := some code }) hw
    | _ => simp

theorem ofSignals_ne_spawnFailed (timeout : Nat) (ss : List Signal) :
    (ofSignals timeout ss).termination ≠ some .spawnFailed := by
  have hall (w : Watch) (ss : List Signal) (h : w.termination ≠ some .spawnFailed) :
      (observeAll timeout w ss).termination ≠ some .spawnFailed := by
    induction ss generalizing w with
    | nil => exact h
    | cons s ss ih => exact ih _ (observe_ne_spawnFailed h s)
  exact hall _ _ (by simp)

/-- The line that is added when something is heard. -/
def added (w : Watch) : Signal → List (OutputStream × Text)
  | .line stream line => if w.termination.isNone && w.streamsOpen then [(stream, line)] else []
  | _ => []

theorem Faithful.settle (h : Faithful timeout w lines) (hw : w.termination = none) :
    Faithful timeout w.settle lines := by
  refine (settle_eq hw) ▸ h.congr rfl rfl rfl ?_
  rw [hw]
  dsimp only
  split <;> rfl

/-- **One thing heard**: what is written down still follows what is shown. -/
theorem Faithful.observe (h : Faithful timeout w lines) (s : Signal) :
    Faithful timeout (Watch.observe timeout w s) (lines ++ w.added s) := by
  by_cases hw : w.termination.isSome
  · have hadded : w.added s = [] := by
      obtain ⟨t, ht⟩ := Option.isSome_iff_exists.mp hw
      cases s <;> simp [added, ht]
    obtain ⟨status, hstep⟩ := exists_observe timeout hw s
    rw [hstep, hadded, List.append_nil]
    exact h.congr rfl rfl rfl rfl
  · have hw : w.termination = none := by simpa using hw
    have hstderr := h.stderr
    rw [hw] at hstderr
    rw [observe_of_none timeout hw]
    cases s with
    | line stream line =>
      by_cases hopen : w.streamsOpen
      · simp only [added, hw, hopen, Option.isNone_none, Bool.and_self, if_true]
        exact h.addLine hw (stream, line)
      · simpa [added, hopen] using h
    | closed =>
      simp only [added, List.append_nil]
      exact Faithful.settle (h.congr rfl rfl rfl rfl) hw
    | ended code =>
      simp only [added, List.append_nil]
      split
      · exact h
      · exact Faithful.settle (h.congr rfl rfl rfl rfl) hw
    | lost =>
      simp only [added, List.append_nil]
      exact h.congr rfl rfl rfl (by rw [hw]; rfl)
    | cancelled =>
      simp only [added, List.append_nil]
      exact h.congr rfl rfl rfl (by rw [hw]; rfl)
    | timeUp =>
      simp only [added, List.append_nil]
      refine ⟨h.shown, h.stdout, ?_⟩
      simp [hstderr, notice]

end Watch

end BuildMender
