import DateDisplay.Proofs.Expansion
import DateDisplay.Proofs.Migration.Run
import DateDisplay.Proofs.Migration.Setup

/-!
# Runs that are stopped

A run that is stopped has done the files before the one where it stopped, and those
only.  For its results, its sums and its tree that is `run_course`.  It remains to
say which calls are made on the files.

`processVia` and `runVia` are processing and running with the three calls as a
parameter, so that every access to a file goes through them.  With the calls of a
store they are what a migration does (`processVia_plain`, `runVia_plain`).  With calls
that note themselves (`Access.watched`) they do the same and give the list of the
calls that were made (`processVia_watched`, `runVia_watched`).
-/

namespace DateDisplay

open Text

/-- A call on a file. -/
inductive StoreCall where
  | lookup (path : Text)
  | read (path : Text)
  | write (path content : Text)

/-- The path that a call is made for. -/
def StoreCall.path : StoreCall → Text
  | .lookup path => path
  | .read path => path
  | .write path _ => path

/-- The calls on files, on a state of any kind. -/
structure Access (σ : Type) where
  contains : σ → Text → Except StoreFault Bool × σ
  read : σ → Text → Except StoreFault Text × σ
  write : σ → Text → Text → Except StoreFault Unit × σ

/-- The calls of a store, on a tree. -/
def FileStore.plain (s : FileStore) : Access FileTree where
  contains t path := (s.contains t path, t)
  read t path := (s.read t path, t)
  write t path content :=
    match s.write t path content with
    | .ok t => (.ok (), t)
    | .error f => (.error f, t)

/-- The calls with a list of those that were made. -/
def Access.watched {σ : Type} (a : Access σ) : Access (σ × List StoreCall) where
  contains s path :=
    ((a.contains s.1 path).1, (a.contains s.1 path).2, s.2 ++ [.lookup path])
  read s path := ((a.read s.1 path).1, (a.read s.1 path).2, s.2 ++ [.read path])
  write s path content :=
    ((a.write s.1 path content).1, (a.write s.1 path content).2, s.2 ++ [.write path content])

namespace Migration

variable {σ : Type}

/-- Processes a file with the given calls. -/
def processVia (m : Migration) (a : Access σ) (s : σ) (path : Text) :
    Except ProcessFault FileResult × σ :=
  match a.contains s path with
  | (.error f, s) => (.error (.checking path f), s)
  | (.ok false, s) => (.ok (untouched path .missing), s)
  | (.ok true, s) =>
    match a.read s path with
    | (.error f, s) => (.error (.reading path f), s)
    | (.ok content, s) =>
      if (m.substitution.scan content).isEmpty then (.ok (untouched path .unchanged), s)
      else if m.dry then (.ok (m.resultOf path content), s)
      else
        match a.write s path (m.migrated path content).content with
        | (.error f, s) => (.error (.writing path f), s)
        | (.ok _, s) => (.ok (m.resultOf path content), s)

/-- Runs over the files from number `k` on with the given calls. -/
def runVia (m : Migration) (a : Access σ) (stop : Option Nat) :
    (k : Nat) → List Text → σ → List FileResult × Option RunFault × σ
  | _, [], s => ([], none, s)
  | k, path :: rest, s =>
    if isStopped stop k then ([], some .cancelled, s)
    else
      match m.processVia a s path with
      | (.error f, s) => ([], some (.processing path f), s)
      | (.ok r, s) =>
        let (rs, fault, s) := runVia m a stop (k + 1) rest s
        (r :: rs, fault, s)

/-! ### The calls of a store -/

theorem processVia_plain (m : Migration) (t : FileTree) (path : Text) :
    m.processVia m.store.plain t path = ((m.process t path).outcome, (m.process t path).tree) := by
  rw [processVia, process]
  simp only [FileStore.plain]
  cases m.store.contains t path with
  | error f => rfl
  | ok b =>
    cases b with
    | false => rfl
    | true =>
      dsimp only
      cases m.store.read t path with
      | error f => rfl
      | ok c =>
        dsimp only
        split
        · rfl
        · rw [change]
          cases m.dry with
          | true => rfl
          | false =>
            dsimp only [Bool.false_eq_true, if_false]
            cases m.store.write t path (m.migrated path c).content with
            | error f => rfl
            | ok t' => rfl

/-- **The run with the calls of the store is the run.** -/
theorem runVia_plain {m : Migration} {stop : Option Nat} {rest : List Text} {t' : FileTree}
    {fault : Option RunFault} : ∀ {done : List Text} {rs : List FileResult} {k : Nat}
    {t : FileTree}, Course m stop k t done rest rs t' fault →
      m.runVia m.store.plain stop k (done ++ rest) t = (rs, fault, t') := by
  intro done
  induction done with
  | nil =>
    intro rs k t h
    obtain ⟨-, hsteps, hends⟩ := h
    cases hsteps
    cases hends with
    | finished => rfl
    | cancelled hstop =>
      have hstop : isStopped stop k = true := hstop
      rw [List.nil_append, runVia, hstop, if_pos rfl]
    | failed hstop ho =>
      have hstop : isStopped stop k = false := hstop
      rw [List.nil_append, runVia, hstop, processVia_plain, ho, tree_of_error ho]
      rfl
  | cons path done ih =>
    intro rs k t h
    obtain ⟨hun, hsteps, hends⟩ := h
    obtain ⟨hstop, hun⟩ := unstopped_succ.mp hun
    cases hsteps with
    | cons ho hsteps =>
      have hends : Ends m stop (k + 1 + done.length) t' rest fault := by
        rwa [List.length_cons, Nat.add_comm done.length, ← Nat.add_assoc] at hends
      rw [List.cons_append, runVia, hstop, processVia_plain, ho]
      simp only [Bool.false_eq_true, if_false, ih ⟨hun, hsteps, hends⟩]

/-! ### The calls that are made -/

theorem processVia_watched (m : Migration) (a : Access σ) (s : σ) (log : List StoreCall)
    (path : Text) : ∃ calls, m.processVia a.watched (s, log) path
      = ((m.processVia a s path).1, (m.processVia a s path).2, log ++ calls) ∧
      ∀ call ∈ calls, call.path = path := by
  unfold processVia
  simp only [Access.watched]
  rcases a.contains s path with ⟨found, s₁⟩
  cases found with
  | error f => exact ⟨[.lookup path], rfl, by simp [StoreCall.path]⟩
  | ok b =>
    cases b with
    | false => exact ⟨[.lookup path], rfl, by simp [StoreCall.path]⟩
    | true =>
      dsimp only
      rcases a.read s₁ path with ⟨text, s₂⟩
      cases text with
      | error f => exact ⟨[.lookup path, .read path], by simp, by simp [StoreCall.path]⟩
      | ok c =>
        dsimp only
        split
        · exact ⟨[.lookup path, .read path], by simp, by simp [StoreCall.path]⟩
        · split
          · exact ⟨[.lookup path, .read path], by simp, by simp [StoreCall.path]⟩
          · refine ⟨[.lookup path, .read path, .write path (m.migrated path c).content], ?_,
              by simp [StoreCall.path]⟩
            rcases a.write s₂ path (m.migrated path c).content with ⟨done, s₃⟩
            cases done with
            | error f => simp
            | ok u => simp

/-- **Calls are made for the files that have results and the one after them only.** -/
theorem runVia_watched (m : Migration) (a : Access σ) (stop : Option Nat) :
    ∀ (paths : List Text) (k : Nat) (s : σ) (log : List StoreCall), ∃ calls,
      m.runVia a.watched stop k paths (s, log) = ((m.runVia a stop k paths s).1,
        (m.runVia a stop k paths s).2.1, (m.runVia a stop k paths s).2.2, log ++ calls) ∧
      ∀ call ∈ calls, call.path ∈ paths.take ((m.runVia a stop k paths s).1.length + 1) := by
  intro paths
  induction paths with
  | nil => intro k s log; exact ⟨[], by simp [runVia], by simp⟩
  | cons path paths ih =>
    intro k s log
    unfold runVia
    split
    · exact ⟨[], by simp, by simp⟩
    · obtain ⟨calls, hp, hcalls⟩ := m.processVia_watched a s log path
      rw [hp]
      rcases m.processVia a s path with ⟨outcome, s₁⟩
      cases outcome with
      | error f => exact ⟨calls, rfl, fun call hc => by simp [hcalls call hc]⟩
      | ok r =>
        obtain ⟨more, hr, hmore⟩ := ih (k + 1) s₁ (log ++ calls)
        dsimp only
        refine ⟨calls ++ more, ?_, fun call hc => ?_⟩
        · rw [hr, List.append_assoc]
        · rw [List.length_cons, List.take_succ_cons]
          rcases List.mem_append.mp hc with hc | hc
          · rw [hcalls call hc]
            exact List.mem_cons_self
          · exact List.mem_cons_of_mem _ (hmore call hc)

/-! ### Stopped runs -/

/-- **A run that is stopped has done the files before the one where it stopped, and
those only.**  Without a list of files it has done nothing. -/
theorem stopped_run_did_first_files (m : Migration) (t : FileTree) (records : List FileRecord)
    (stop : Option Nat) :
    (∀ f, (m.plan.expand t m.root).2 = .error f → (m.run t records stop).summary = none ∧
      (m.run t records stop).tree = t ∧ (m.run t records stop).records = records) ∧
    ∀ files, (m.plan.expand t m.root).2 = .ok files → (m.run t records stop).fault ≠ none →
      ∃ k summary calls, k < files.length ∧ (m.run t records stop).summary = some summary ∧
        Steps m t (files.take k) summary.files (m.run t records stop).tree ∧
        (m.run t records stop).records = summary.files.map FileResult.record ∧
        summary.modified = summary.files.countP (·.status.hasSites) ∧
        summary.replacements
          = RunSummary.signedWord (RunSummary.sumOver (·.replacements) summary.files) ∧
        summary.bytesWritten = RunSummary.signedWord (RunSummary.sumOver (·.bytes) summary.files) ∧
        m.runVia m.store.plain.watched stop 0 files (t, [])
          = (summary.files, (m.run t records stop).fault, (m.run t records stop).tree, calls) ∧
        ∀ call ∈ calls, call.path ∈ files.take (k + 1) ∧ call.path ∉ files.drop (k + 1) := by
  refine ⟨fun f he => ?_, fun files he hf => ?_⟩
  · obtain ⟨htree, hrec, hsum, -⟩ := run_of_expand_error he records stop
    exact ⟨hsum, htree, hrec⟩
  · have hnodup := Plan.nodup_of_expand he
    obtain ⟨done, rest, rs, rfl, hc, hrec, hsum⟩ := run_course he records stop
    have hlt : done.length < (done ++ rest).length := by
      have hrest := List.length_pos_of_ne_nil (mt hc.ends.fault_eq_none_iff.mpr hf)
      rw [List.length_append]
      omega
    obtain ⟨calls, hrun, hcalls⟩ := m.runVia_watched m.store.plain stop (done ++ rest) 0 t []
    rw [runVia_plain hc] at hrun hcalls
    refine ⟨done.length, _, calls, hlt, hsum, ?_, hrec, rfl, rfl, rfl, hrun, fun call hcall => ?_⟩
    · rw [List.take_left]
      exact hc.steps
    · have hmem := hcalls call hcall
      rw [hc.steps.length_eq] at hmem
      -- A path is listed once, so it is not among the files that follow.
      exact ⟨hmem, fun hdrop => List.disjoint_take_drop hnodup le_rfl hmem hdrop⟩

/-- A read that fails stops the run at the second file, after the first was written. -/
theorem stopped_run_did_first_file :
    let m := sample [lit "a", lit "b", lit "c"] false
      { reads := fun path => if path = lit "b" then some (lit "no access") else none }
    (m.run .sample [] none).fault ≠ none ∧
      ∃ k < 3, ∃ summary, (m.run .sample [] none).summary = some summary ∧
        Steps m .sample ([lit "a", lit "b", lit "c"].take k) summary.files
          (m.run .sample [] none).tree ∧ summary.modified = 1 := by
  intro m
  have hf : (m.run .sample [] none).fault ≠ none := by decide +kernel
  obtain ⟨k, summary, -, hk, hsum, hsteps, -⟩ :=
    (stopped_run_did_first_files m .sample [] none).2 [lit "a", lit "b", lit "c"]
      (by decide +kernel) hf
  have hone : (m.run .sample [] none).summary.map (·.modified) = some 1 := by decide +kernel
  rw [hsum, Option.map_some, Option.some.injEq] at hone
  exact ⟨hf, k, hk, summary, hsum, hsteps, hone⟩

end Migration

end DateDisplay
