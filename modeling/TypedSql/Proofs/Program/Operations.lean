import TypedSql.Program

namespace TypedSql.Program

/-! # Operations on files as steps of a command

What a command asks of the files is written for every kind of steps. As steps of a command these
operations come to what they come to on the files alone: they give a value and tell the reader
nothing.
-/

/-! ## Runs of steps -/

section

variable {σ α β : Type}

/-- The result of a step, with the lines so far and the files after it. -/
def exec (x : Step (StateM σ) α) (t : Transcript) (files : σ) :
    (Except Failure α × Transcript) × σ :=
  (x.run.run t).run files

/-- A value that is given leaves the transcript and the files as they are. -/
@[simp]
theorem exec_pure (a : α) (t : Transcript) (files : σ) :
    exec (pure a : Step (StateM σ) α) t files = ((.ok a, t), files) := rfl

/-- A step after another one runs where that one has stopped, unless that one has failed. -/
theorem exec_bind (x : Step (StateM σ) α) (f : α → Step (StateM σ) β) (t : Transcript)
    (files : σ) :
    exec (x >>= f) t files = match exec x t files with
      | ((.ok a, t'), files') => exec (f a) t' files'
      | ((.error e, t'), files') => ((.error e, t'), files') := by
  change (match (x.run.run t).run files with
    | (p, files') => ((ExceptT.bindCont f p.1).run p.2).run files') = _
  unfold exec
  obtain ⟨⟨result, t'⟩, files'⟩ := (x.run.run t).run files
  cases result <;> rfl

/-- A second step is run where the first one has ended. -/
theorem exec_bind_of_ok {x : Step (StateM σ) α} {f : α → Step (StateM σ) β} {t t' : Transcript}
    {files files' : σ} {a : α} (h : exec x t files = ((.ok a, t'), files')) :
    exec (x >>= f) t files = exec (f a) t' files' := by
  rw [exec_bind, h]

/-- Where steps one after another give a value, the first one has given the value that the others
started with. -/
theorem exec_bind_eq_ok {x : Step (StateM σ) α} {f : α → Step (StateM σ) β}
    {t t'' : Transcript} {files files'' : σ} {b : β}
    (h : exec (x >>= f) t files = ((.ok b, t''), files'')) :
    ∃ a t' files', exec x t files = ((.ok a, t'), files') ∧
      exec (f a) t' files' = ((.ok b, t''), files'') := by
  rw [exec_bind] at h
  generalize exec x t files = ran at h
  obtain ⟨⟨result, t'⟩, files'⟩ := ran
  cases result with
  | error e => cases h
  | ok a => exact ⟨a, t', files', rfl, h⟩

/-- An operation on the files is a step that tells the reader nothing. -/
theorem exec_lift (x : StateM σ α) (t : Transcript) (files : σ) :
    exec (monadLift (monadLift x : StateT Transcript (StateM σ) α) : Step (StateM σ) α)
      t files = ((.ok (x.run files).1, t), (x.run files).2) := rfl

end

/-! ## Steps that act on the files only -/

/-- A step acts as an operation on the files: it gives the value of the operation and leaves the
files as the operation does, whatever the reader was told before. -/
def Acts {σ α : Type} (x : Step (StateM σ) α) (y : StateM σ α) : Prop :=
  ∀ t files, exec x t files = ((.ok (y.run files).1, t), (y.run files).2)

namespace Acts

variable {σ α β : Type} {x : Step (StateM σ) α} {y : StateM σ α} {f : α → Step (StateM σ) β}
  {g : α → StateM σ β}

/-- A value that is given acts on nothing. -/
theorem pure (a : α) : Acts (Pure.pure a : Step (StateM σ) α) (Pure.pure a) := fun _ _ => rfl

/-- Steps one after another act as the operations one after another. -/
theorem bind (hx : Acts x y) (hf : ∀ a, Acts (f a) (g a)) : Acts (x >>= f) (y >>= g) := by
  intro t files
  rw [exec_bind_of_ok (hx t files), hf]
  rfl

theorem map (h : α → β) (hx : Acts x y) : Acts (h <$> x) (h <$> y) := by
  rw [map_eq_pure_bind, map_eq_pure_bind]
  exact hx.bind fun a => .pure (h a)

/-- Steps for the elements of a list act as the operations for them. -/
theorem mapM (as : List α) (hf : ∀ a, Acts (f a) (g a)) : Acts (as.mapM f) (as.mapM g) := by
  induction as with
  | nil => exact .pure []
  | cons a as ih =>
      rw [List.mapM_cons, List.mapM_cons]
      exact (hf a).bind fun b => ih.bind fun bs => .pure (b :: bs)

end Acts

section

variable {σ : Type} [FileAccess (StateM σ)]

/-! ## Single operations -/

/-- Asking for the working directory acts on the files only. -/
theorem acts_workingDirectory :
    Acts (FileAccess.workingDirectory : Step (StateM σ) _) FileAccess.workingDirectory :=
  fun _ _ => rfl

/-- Reading a file acts on the files only. -/
theorem acts_read (p : Path) :
    Acts (FileAccess.read p : Step (StateM σ) _) (FileAccess.read p) := fun _ _ => rfl

/-- Writing a file acts on the files only. -/
theorem acts_write (p : Path) (text : String) :
    Acts (FileAccess.write p text : Step (StateM σ) _) (FileAccess.write p text) := fun _ _ => rfl

theorem acts_makeDirectory (p : Path) :
    Acts (FileAccess.makeDirectory p : Step (StateM σ) _) (FileAccess.makeDirectory p) :=
  fun _ _ => rfl

theorem acts_isDirectory (p : Path) :
    Acts (FileAccess.isDirectory p : Step (StateM σ) _) (FileAccess.isDirectory p) :=
  fun _ _ => rfl

theorem acts_filesBelow (p : Path) :
    Acts (FileAccess.filesBelow p : Step (StateM σ) _) (FileAccess.filesBelow p) :=
  fun _ _ => rfl

/-! ## Operations made of others -/

/-- Making a path absolute acts on the files only. -/
theorem acts_absolute (p : Path) :
    Acts (FileAccess.absolute p : Step (StateM σ) _) (FileAccess.absolute p) := by
  unfold FileAccess.absolute
  split
  · exact .pure p
  · exact acts_workingDirectory.bind fun directory => .pure (directory.join p)

/-- Finding the SQL files acts on the files only. -/
theorem acts_sqlFiles (roots : List Path) :
    Acts (Discovery.sqlFiles roots : Step (StateM σ) _) (Discovery.sqlFiles roots) :=
  (Acts.mapM roots acts_filesBelow).bind fun _ => .pure _

theorem acts_settle (p : Path) (result : Except FileError Unit) :
    Acts (FileAccess.makeDirectoriesWithin.settle p result : Step (StateM σ) _)
      (FileAccess.makeDirectoriesWithin.settle p result) := by
  unfold FileAccess.makeDirectoriesWithin.settle
  cases result with
  | ok u => exact .pure _
  | error e =>
      refine (acts_isDirectory p).bind fun there => ?_
      cases there <;> exact .pure _

/-- Making directories with those above them acts on the files only, by induction on how many there
may be. -/
theorem acts_makeDirectoriesWithin (fuel : Nat) (p : Path) :
    Acts (FileAccess.makeDirectoriesWithin fuel p : Step (StateM σ) _)
      (FileAccess.makeDirectoriesWithin fuel p) := by
  induction fuel generalizing p with
  | zero => exact .pure _
  | succ fuel ih =>
      unfold FileAccess.makeDirectoriesWithin
      split
      · exact .pure _
      refine (acts_makeDirectory p).bind fun made => ?_
      cases made with
      | ok u => exact .pure _
      | error failure =>
          cases failure with
          | notFound =>
              cases p.parent with
              | none => exact .pure _
              | some parent =>
                  refine (ih parent).bind fun above => ?_
                  cases above with
                  | error e => exact .pure _
                  | ok u => exact (acts_makeDirectory p).bind fun again => acts_settle p again
          | _ => exact acts_settle p _

/-- Making a directory and those above it acts on the files only. -/
theorem acts_makeDirectories (p : Path) :
    Acts (FileAccess.makeDirectories p : Step (StateM σ) _) (FileAccess.makeDirectories p) :=
  acts_makeDirectoriesWithin _ p

end

end TypedSql.Program
