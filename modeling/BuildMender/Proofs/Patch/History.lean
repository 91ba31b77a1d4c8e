import BuildMender.Proofs.Patch.Apply

/-!
# The life of a patch

A manager is asked one thing after another, and in between the files may change and version control may
answer as it likes. So a history is a list of requests, each with the workspace in which it is served
(`BuildMender.PatchManager.History`), and what is said here holds for all of them.

The one thing to know is that a patch has one chance. The *first* request to apply it decides its
status, which is then never decided again (`BuildMender.PatchManager.status_after`), and from then on no
request that names it changes a file or runs a command. Whether it keeps the conventions may still be
noted later; that changes neither what it says nor its status.
-/

namespace BuildMender

namespace PatchManager

variable {m : PatchManager} {id : PatchId} {p : Patch}

/-! ### Histories -/

/-- What can be asked of a manager. -/
inductive Request where
  /-- A new patch is put in. -/
  | generate (id : PatchId) (text : Text) (targets : List Text) (compliant : Bool)
  /-- It is noted whether a patch keeps the conventions. -/
  | setCompliant (id : PatchId) (compliant : Bool)
  | validate (id : PatchId)
  /-- A patch is checked against the conventions. -/
  | compliance (id : PatchId)
  | apply (id : PatchId)
deriving DecidableEq

/-- The patch that a request names. -/
def Request.named : Request → PatchId
  | .generate id _ _ _ => id
  | .setCompliant id _ => id
  | .validate id => id
  | .compliance id => id
  | .apply id => id

/-- **A request served** in a workspace. -/
def serve (m : PatchManager) (w : Workspace) : Request → PatchManager × Workspace
  | .generate id text targets compliant => (m.insert id (Patch.ofText text targets compliant), w)
  | .setCompliant id compliant => ((m.setCompliant id compliant).toOption.getD m, w)
  | .validate id => (m, (w.perform (m.validating id)).2)
  | .compliance id => (m, (w.perform (m.checking id)).2)
  | .apply id => (m.apply id w).2

/-- Requests, each with the workspace in which it is served. -/
abbrev History := List (Request × Workspace)

/-- The manager after a history. -/
def after (m : PatchManager) : History → PatchManager
  | [] => m
  | (r, w) :: more => (m.serve w r).1.after more

/-- The names under which patches are put in. -/
def generated (h : History) : List PatchId :=
  h.filterMap fun
    | (.generate id _ _ _, _) => some id
    | _ => none

/-- The outcome of the first request to apply a patch. -/
def firstOutcome? (m : PatchManager) (id : PatchId) : History → Option (Except PatchError ApplyReport)
  | [] => none
  | (r, w) :: more =>
    if r = .apply id then some (m.apply id w).1 else (m.serve w r).1.firstOutcome? id more

/-- The status that an outcome gives to a pending patch. -/
def statusOf : Option (Except PatchError ApplyReport) → PatchStatus
  | none => .pending
  | some (.ok _) => .valid
  | some (.error _) => .invalid

theorem after_append (m : PatchManager) (h h' : History) : m.after (h ++ h') = (m.after h).after h' := by
  induction h generalizing m with
  | nil => rfl
  | cons e h ih => exact ih _

/-! ### One request -/

/-- Whether a patch keeps the conventions, noted. -/
def noted (compliant : Bool) (p : Patch) : Patch :=
  { p with compliant := compliant, autoCommit := compliant }

theorem setCompliant_cases (m : PatchManager) (id : PatchId) (compliant : Bool) :
    m.get? id = none ∧ (m.setCompliant id compliant).toOption.getD m = m ∨
      (m.setCompliant id compliant).toOption.getD m = m.update id (noted compliant) := by
  rw [setCompliant, find]
  cases m.get? id with
  | none => exact Or.inl ⟨rfl, rfl⟩
  | some p => exact Or.inr rfl

/-- A patch whose text and parts go together: it says what its text says, and asks to be committed
exactly if it keeps the conventions. -/
def Sound (p : Patch) : Prop := p.autoCommit = p.compliant ∧ p.content = PatchContent.ofText p.raw

theorem sound_ofText (text : Text) (targets : List Text) (compliant : Bool) :
    Sound (Patch.ofText text targets compliant) := ⟨rfl, rfl⟩

theorem Sound.ended (h : Sound p) (outcome : Except PatchError ApplyReport) :
    Sound (p.ended outcome) := by
  cases outcome with
  | ok report => exact h
  | error e =>
    rw [Patch.ended, Patch.refused]
    split <;> exact h

/-- **What a request does to the patches**: one is put in, or nothing changes, or the one that is named
changes and stays sound. -/
theorem serve_cases (m : PatchManager) (w : Workspace) (r : Request) :
    (∃ id text targets compliant, r = .generate id text targets compliant) ∨ (m.serve w r).1 = m ∨
      ∃ f, (∀ p, Sound p → Sound (f p)) ∧ (m.serve w r).1 = m.update r.named f := by
  cases r with
  | generate id text targets compliant => exact Or.inl ⟨id, text, targets, compliant, rfl⟩
  | setCompliant id compliant =>
    rcases setCompliant_cases m id compliant with ⟨-, h⟩ | h
    · exact Or.inr (Or.inl h)
    · exact Or.inr (Or.inr ⟨noted compliant, fun p hp => ⟨rfl, hp.2⟩, h⟩)
  | validate id => exact Or.inr (Or.inl rfl)
  | compliance id => exact Or.inr (Or.inl rfl)
  | apply id =>
    refine Or.inr (Or.inr ⟨Patch.ended (m.apply id w).1, fun p hp => hp.ended _, ?_⟩)
    exact (applied m id w).manager_eq

/-- **Each request keeps the patches sound.** -/
theorem sound_serve (hm : ∀ e ∈ m.patches, Sound e.2) (w : Workspace) (r : Request) :
    ∀ e ∈ (m.serve w r).1.patches, Sound e.2 := by
  rcases serve_cases m w r with ⟨id, text, targets, compliant, rfl⟩ | h | ⟨f, hf, h⟩
  · intro e he
    rcases List.mem_append.mp he with he | he
    · exact hm e he
    · obtain rfl := List.mem_singleton.mp he
      exact sound_ofText text targets compliant
  · rwa [h]
  · rw [h]
    intro e he
    obtain ⟨e', he', rfl⟩ := List.mem_map.mp he
    split
    · exact hf _ (hm e' he')
    · exact hm e' he'

/-- **No request changes the record of another patch.** -/
theorem get?_serve_of_ne (w : Workspace) {r : Request} (h : id ≠ r.named) :
    (m.serve w r).1.get? id = m.get? id := by
  rcases serve_cases m w r with ⟨id', text, targets, compliant, rfl⟩ | hr | ⟨f, -, hr⟩
  · have hne : id ≠ id' := h
    rw [serve, get?_insert, if_neg hne, Option.or_none]
  · rw [hr]
  · rw [hr, get?_update, if_neg h]

/-- A patch that was applied is pending no more, and nothing else decides its status. -/
theorem exists_get?_serve (hp : m.get? id = some p) (w : Workspace) (r : Request) :
    ∃ p', (m.serve w r).1.get? id = some p' ∧
      p'.status = if r = .apply id ∧ p.status = .pending then statusOf (some (m.apply id w).1)
        else p.status := by
  by_cases hid : id = r.named
  · cases r with
    | generate id' text targets compliant =>
      refine ⟨p, ?_, by simp⟩
      rw [serve, get?_insert, hp, Option.some_or]
    | setCompliant id' compliant =>
      obtain rfl : id = id' := hid
      rw [serve]
      rcases setCompliant_cases m id compliant with ⟨hnone, -⟩ | hc
      · exact absurd (hp.symm.trans hnone) nofun
      · refine ⟨noted compliant p, ?_, by simp [noted]⟩
        rw [hc, get?_update_self hp]
    | validate id' => exact ⟨p, hp, by simp⟩
    | compliance id' => exact ⟨p, hp, by simp⟩
    | apply id' =>
      obtain rfl : id = id' := hid
      refine ⟨p.ended (m.apply id w).1, ?_, ?_⟩
      · rw [serve, (applied m id w).manager_eq, get?_update_self hp]
      · cases hr : (m.apply id w).1 with
        | error e =>
          rw [Patch.ended, Patch.refused]
          by_cases hs : p.status = .pending <;> simp [hs, statusOf]
        | ok report =>
          have hs : p.status = .pending := (applied m id w).pending_of_ok hp hr
          simp [hs, statusOf, Patch.ended, Patch.applied]
  · have hne : r ≠ .apply id := fun hr => hid (by rw [hr, Request.named])
    refine ⟨p, by rw [get?_serve_of_ne w hid, hp], by simp [hne]⟩

/-- **A patch that is pending no more is left in peace**: no request that names it changes a file or runs
a command. -/
theorem serve_of_resolved {r : Request} (hp : m.get? r.named = some p) (hs : p.status ≠ .pending)
    (w : Workspace) : (m.serve w r).2.disk = w.disk ∧ (m.serve w r).2.runner = w.runner := by
  cases r with
  | generate id text targets compliant => exact ⟨rfl, rfl⟩
  | setCompliant id compliant => exact ⟨rfl, rfl⟩
  | validate id =>
    exact ⟨(within_validating m id).run_snd_of_looksBelow w.disk, rfl⟩
  | compliance id =>
    exact ⟨(within_checking m id).run_snd_of_looksBelow w.disk, rfl⟩
  | apply id => exact (applied m id w).unchanged_of_resolved hp hs

/-! ### All of a history -/

theorem sound_after (hm : ∀ e ∈ m.patches, Sound e.2) (h : History) :
    ∀ e ∈ (m.after h).patches, Sound e.2 := by
  induction h generalizing m with
  | nil => exact hm
  | cons e h ih => exact ih (sound_serve hm e.2 e.1)

/-- A name that was not given to a patch is not that of one. -/
theorem get?_after_eq_none (hm : m.get? id = none) {h : History} (hid : id ∉ generated h) :
    (m.after h).get? id = none := by
  induction h generalizing m with
  | nil => exact hm
  | cons e h ih =>
    obtain ⟨r, w⟩ := e
    have hcons : generated ((r, w) :: h) = (generated [(r, w)]) ++ generated h :=
      List.filterMap_append (l := [(r, w)])
    rw [hcons, List.mem_append, not_or] at hid
    refine ih ?_ hid.2
    rcases serve_cases m w r with ⟨id', text, targets, compliant, rfl⟩ | hr | ⟨f, -, hr⟩
    · have hne : id ≠ id' := fun h => hid.1 (by simp [generated, h])
      rw [serve, get?_insert, if_neg hne, hm, Option.none_or]
    · rw [hr, hm]
    · rw [hr, get?_update, hm]
      split <;> rfl

/-- **The first request to apply a patch decides its status**, and the only one. -/
theorem status_after (hp : m.get? id = some p) (h : History) :
    ((m.after h).get? id).map Patch.status =
      some (if p.status = .pending then statusOf (m.firstOutcome? id h) else p.status) := by
  -- over the requests: one that decides the status leaves a patch whose status is not pending
  induction h generalizing m p with
  | nil =>
    rw [after, hp, Option.map_some, firstOutcome?]
    split
    · rename_i hs
      rw [hs]
      rfl
    · rfl
  | cons e h ih =>
    obtain ⟨r, w⟩ := e
    obtain ⟨p', hp', hstatus⟩ := exists_get?_serve hp w r
    rw [after, ih hp', hstatus, firstOutcome?]
    by_cases hr : r = .apply id
    · by_cases hs : p.status = .pending
      · have hne : statusOf (some (m.apply id w).1) ≠ .pending := by
          cases (m.apply id w).1 <;> simp [statusOf]
        simp [hr, hs, hne]
      · simp [hr, hs]
    · simp [hr]

/-- **The life of every patch.** After any history that begins with no patches and gives each patch a name
of its own, served in any workspaces:

* each patch says what its text says, and asks to be committed exactly if it keeps the conventions;
* the status of a patch is pending until it is first applied, and from then on what that came to;
* when it is pending no more, no request that names it changes a file or runs a command;
* no request changes the record of a patch that it does not name. -/
theorem life_of_patches (hm : m.patches = []) (h : History) (hn : (generated h).Nodup) :
    (∀ e ∈ (m.after h).patches, e.2.autoCommit = e.2.compliant ∧
      e.2.content = PatchContent.ofText e.2.raw) ∧
    (∀ before id text targets compliant w rest,
      h = before ++ (.generate id text targets compliant, w) :: rest →
        ((m.after h).get? id).map Patch.status =
          some (statusOf ((m.after (before ++ [(.generate id text targets compliant, w)])).firstOutcome?
            id rest))) ∧
    (∀ r p, (m.after h).get? r.named = some p → p.status ≠ .pending → ∀ w,
      ((m.after h).serve w r).2.disk = w.disk ∧ ((m.after h).serve w r).2.runner = w.runner) ∧
    ∀ r id, id ≠ r.named → ∀ w, ((m.after h).serve w r).1.get? id = (m.after h).get? id := by
  refine ⟨sound_after (by simp [hm]) h, ?_, fun r p hp hs w => serve_of_resolved hp hs w,
    fun r id hid w => get?_serve_of_ne w hid⟩
  rintro before id text targets compliant w rest rfl
  have hid : id ∉ generated before := by
    rw [generated, List.filterMap_append] at hn
    exact fun hmem => (List.nodup_append.mp hn).2.2 id hmem id (by simp) rfl
  have hnone : (m.after before).get? id = none := get?_after_eq_none (by simp [get?, hm]) hid
  have hmade : (m.after (before ++ [(.generate id text targets compliant, w)])).get? id =
      some (Patch.ofText text targets compliant) := by
    rw [after_append, after, after, serve, get?_insert, hnone, if_pos rfl, Option.none_or]
  rw [List.append_cons, after_append, status_after hmade]
  rfl

/-- A patch that is applied, is then found to break the conventions, and is applied again. -/
def appliedTwice : History :=
  [(.generate "1" (block "a.cpp" "int a;" "int c;") [] true, ⟨smallProject, {}, [], []⟩),
    (.apply "1", ⟨smallProject, {}, [], []⟩), (.setCompliant "1" false, ⟨smallProject, {}, [], []⟩),
    (.apply "1", ⟨smallProject, {}, [], []⟩)]

/-- Such a patch stays valid, and applying it once more would change no file. -/
theorem appliedTwice_stays_valid :
    (generated appliedTwice).Nodup ∧
      ((({ root := "/p" } : PatchManager).after appliedTwice).get? "1").map Patch.status = some .valid ∧
      ((({ root := "/p" } : PatchManager).after appliedTwice).serve ⟨smallProject, {}, [], []⟩
        (.apply "1")).2.disk = smallProject := by
  have hn : (generated appliedTwice).Nodup := by decide +kernel
  obtain ⟨-, hstatus, hpeace, -⟩ := life_of_patches (m := { root := "/p" }) rfl appliedTwice hn
  have hvalid : ((({ root := "/p" } : PatchManager).after appliedTwice).get? "1").map Patch.status =
      some .valid := by
    rw [hstatus [] "1" _ [] true _ _ rfl]
    decide +kernel
  obtain ⟨p, hp, hs⟩ := Option.map_eq_some_iff.mp hvalid
  exact ⟨hn, hvalid, (hpeace (.apply "1") p hp (by simp [hs]) _).1⟩

end PatchManager

end BuildMender
