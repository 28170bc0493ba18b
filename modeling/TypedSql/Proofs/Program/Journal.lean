import TypedSql.Proofs.Program.Operations

namespace TypedSql

/-! # Watched files

A command runs on any files whose operations are functions of their state. Here they are watched:
every attempt to change them is put down, so that what a command did to the files can be told from
its journal. `Yields` says of a step that it always gives a value, and what it put down for it.
-/

/-- An attempt to change the files, and whether it succeeded. -/
inductive Event
  | write (p : Path) (text : String) (done : Bool)
  | makeDirectory (p : Path) (done : Bool)
  deriving DecidableEq, Repr

/-- The text that an attempt made the content of a file. -/
def Event.written? : Event → Option (Path × String)
  | write p text true => some (p, text)
  | _ => none

/-- Files with the attempts to change them so far. -/
structure Watched (σ : Type) where
  files : σ
  journal : List Event

namespace Watched

variable {σ α : Type}

/-- A look at the files. -/
def look (x : StateM σ α) : StateM (Watched σ) α := fun w =>
  ((x.run w.files).1, ⟨(x.run w.files).2, w.journal⟩)

/-- Whether an attempt succeeded. -/
def isDone (result : Except FileError Unit) : Bool :=
  match result with
  | .ok () => true
  | .error _ => false

/-- An attempt to change the files. -/
def attempt (event : Bool → Event) (x : StateM σ (Except FileError Unit)) :
    StateM (Watched σ) (Except FileError Unit) := fun w =>
  ((x.run w.files).1, ⟨(x.run w.files).2, w.journal ++ [event (isDone (x.run w.files).1)]⟩)

instance [FileAccess (StateM σ)] : FileAccess (StateM (Watched σ)) where
  workingDirectory := look FileAccess.workingDirectory
  read p := look (FileAccess.read p)
  write p text := attempt (.write p text) (FileAccess.write p text)
  makeDirectory p := attempt (.makeDirectory p) (FileAccess.makeDirectory p)
  isDirectory p := look (FileAccess.isDirectory p)
  isPresent p := look (FileAccess.isPresent p)
  filesBelow p := look (FileAccess.filesBelow p)

end Watched

namespace Program

/-! ## Steps on watched files -/

/-- A step of a command on watched files. -/
abbrev WatchedStep (σ α : Type) := Step (StateM (Watched σ)) α

section

variable {σ α β : Type}

/-! ## Steps that always give a value -/

/-- A step that gives a value whatever the files are and tells the reader nothing. What it gives and
the attempts that it puts down are related. -/
def Yields (x : WatchedStep σ α) (post : α → List Event → Prop) : Prop :=
  ∀ w, ∃ a files es, (∀ t, exec x t w = ((.ok a, t), ⟨files, w.journal ++ es⟩)) ∧ post a es

namespace Yields

variable {x : WatchedStep σ α} {f : α → WatchedStep σ β} {post : α → List Event → Prop}
  {after : β → List Event → Prop}

/-- A value given without an action makes no event. -/
theorem pure {a : α} (h : post a []) : Yields (Pure.pure a : WatchedStep σ α) post := by
  intro w
  exact ⟨a, w.files, [], fun t => by rw [exec_pure, List.append_nil], h⟩

theorem bind (hx : Yields x post)
    (hf : ∀ a es, post a es → Yields (f a) fun b es' => after b (es ++ es')) :
    Yields (x >>= f) after := by
  intro w
  obtain ⟨a, files, es, hexec, hpost⟩ := hx w
  obtain ⟨b, files', es', hexec', hafter⟩ := hf a es hpost ⟨files, w.journal ++ es⟩
  refine ⟨b, files', es ++ es', fun t => ?_, hafter⟩
  rw [exec_bind_of_ok (hexec t), hexec', List.append_assoc]

/-- What is known of the events of an action may be weakened. -/
theorem mono {post' : α → List Event → Prop} (hx : Yields x post)
    (h : ∀ a es, post a es → post' a es) : Yields x post' := by
  intro w
  obtain ⟨a, files, es, hexec, hpost⟩ := hx w
  exact ⟨a, files, es, hexec, h a es hpost⟩

theorem map {g : α → β} (hx : Yields x fun a es => after (g a) es) : Yields (g <$> x) after := by
  rw [map_eq_pure_bind]
  refine hx.bind fun a es hpost => .pure ?_
  rwa [List.append_nil]

/-- Steps for the elements of a list, each with what it gives and what it puts down. -/
theorem mapM {as : List α} {post : α → β → List Event → Prop}
    (h : ∀ a ∈ as, Yields (f a) (post a)) :
    Yields (as.mapM f) fun bs es => ∃ parts : List (α × β × List Event),
      parts.map (·.1) = as ∧ parts.map (·.2.1) = bs ∧ parts.flatMap (·.2.2) = es ∧
        ∀ part ∈ parts, post part.1 part.2.1 part.2.2 := by
  induction as with
  | nil => exact .pure ⟨[], rfl, rfl, rfl, nofun⟩
  | cons a as ih =>
      rw [List.mapM_cons]
      refine (h a List.mem_cons_self).bind fun b es hb => ?_
      refine (ih fun a' ha' => h a' (List.mem_cons_of_mem _ ha')).bind fun bs es' hbs => .pure ?_
      obtain ⟨parts, rfl, rfl, rfl, hparts⟩ := hbs
      refine ⟨(a, b, es) :: parts, rfl, rfl, by simp, ?_⟩
      intro part hpart
      rcases List.mem_cons.1 hpart with rfl | hpart
      · exact hb
      · exact hparts part hpart

end Yields

/-- A step that always gives a value and puts nothing down. -/
abbrev Silent (x : WatchedStep σ α) : Prop := Yields x fun _ es => es = []

namespace Silent

variable {x : WatchedStep σ α} {f : α → WatchedStep σ β}

/-- After a silent step only its value matters. -/
theorem bind {after : β → List Event → Prop} (hx : Silent x) (hf : ∀ a, Yields (f a) after) :
    Yields (x >>= f) after := by
  refine Yields.bind hx fun a es hes => ?_
  subst hes
  exact hf a

theorem map (g : α → β) (hx : Silent x) : Silent (g <$> x) := Yields.map hx

theorem mapM {as : List α} (h : ∀ a, Silent (f a)) : Silent (as.mapM f) := by
  induction as with
  | nil => exact .pure rfl
  | cons a as ih =>
      rw [List.mapM_cons]
      exact (h a).bind fun b => ih.bind fun bs => .pure rfl

end Silent

/-- Looking at the files makes no event. -/
theorem silent_look (x : StateM σ α) :
    Silent (monadLift (monadLift (Watched.look x) : StateT Transcript (StateM (Watched σ)) α) :
      WatchedStep σ α) := by
  intro w
  refine ⟨(x.run w.files).1, (x.run w.files).2, [], fun t => ?_, rfl⟩
  rw [exec_lift, List.append_nil]
  rfl

/-- Only directories are made. -/
def OnlyDirectories (es : List Event) : Prop := ∀ e ∈ es, ∃ p done, e = .makeDirectory p done

/-- Events that make directories only do so one after the other. -/
theorem OnlyDirectories.append {es es' : List Event} (h : OnlyDirectories es)
    (h' : OnlyDirectories es') : OnlyDirectories (es ++ es') := by
  intro e he
  rcases List.mem_append.1 he with he | he
  · exact h e he
  · exact h' e he

/-- A step that always gives a value and changes nothing but that it makes directories. -/
abbrev Makes (x : WatchedStep σ α) : Prop := Yields x fun _ es => OnlyDirectories es

/-- A value given without an action makes no directory. -/
theorem Makes.pure (a : α) : Makes (Pure.pure a : WatchedStep σ α) := Yields.pure nofun

/-- Two actions that make directories only do so one after the other. -/
theorem Makes.bind {x : WatchedStep σ α} {f : α → WatchedStep σ β} (hx : Makes x)
    (hf : ∀ a, Makes (f a)) : Makes (x >>= f) :=
  Yields.bind hx fun a _ hes => (hf a).mono fun _ _ hes' => hes.append hes'

/-- An action without events makes directories only. -/
theorem Silent.makes {x : WatchedStep σ α} (hx : Silent x) : Makes x := by
  refine hx.mono fun _ es hes => ?_
  subst hes
  exact nofun

end

/-! ## Operations on watched files -/

section

variable {σ : Type} [FileAccess (StateM σ)]

/-- Reading a file makes no event. -/
theorem silent_read (p : Path) : Silent (FileAccess.read p : WatchedStep σ _) := silent_look _

/-- Asking for a directory makes no event. -/
theorem silent_isDirectory (p : Path) : Silent (FileAccess.isDirectory p : WatchedStep σ _) :=
  silent_look _

/-- Listing files makes no event. -/
theorem silent_filesBelow (p : Path) : Silent (FileAccess.filesBelow p : WatchedStep σ _) :=
  silent_look _

/-- Asking for the working directory makes no event. -/
theorem silent_workingDirectory : Silent (FileAccess.workingDirectory : WatchedStep σ _) :=
  silent_look _

/-- Making a path absolute makes no event. -/
theorem silent_absolute (p : Path) : Silent (FileAccess.absolute p : WatchedStep σ _) := by
  unfold FileAccess.absolute
  split
  · exact .pure rfl
  · exact silent_workingDirectory.bind fun directory => .pure rfl

/-- Writing a file is one event, with whether it is done. -/
theorem yields_write (p : Path) (text : String) :
    Yields (FileAccess.write p text : WatchedStep σ _) fun result es =>
      es = [.write p text (Watched.isDone result)] :=
  fun _ => ⟨_, _, _, fun _ => rfl, rfl⟩

/-- Making a directory is one event, with whether it is done. -/
theorem yields_makeDirectory (p : Path) :
    Yields (FileAccess.makeDirectory p : WatchedStep σ _) fun result es =>
      es = [.makeDirectory p (Watched.isDone result)] :=
  fun _ => ⟨_, _, _, fun _ => rfl, rfl⟩

theorem makes_makeDirectory (p : Path) : Makes (FileAccess.makeDirectory p : WatchedStep σ _) := by
  refine (yields_makeDirectory p).mono fun result es hes e he => ?_
  rw [hes] at he
  exact ⟨p, _, List.mem_singleton.1 he⟩

/-- Settling a failure looks at the files only. -/
theorem makes_settle (p : Path) (result : Except FileError Unit) :
    Makes (FileAccess.makeDirectoriesWithin.settle p result : WatchedStep σ _) := by
  unfold FileAccess.makeDirectoriesWithin.settle
  cases result with
  | ok u => exact .pure _
  | error e =>
      refine (silent_isDirectory p).makes.bind fun there => ?_
      cases there <;> exact .pure _

/-- Directories with those above them are made by events that make directories only, by induction on
how many there may be. -/
theorem makes_makeDirectoriesWithin (fuel : Nat) (p : Path) :
    Makes (FileAccess.makeDirectoriesWithin fuel p : WatchedStep σ _) := by
  induction fuel generalizing p with
  | zero => exact .pure _
  | succ fuel ih =>
      unfold FileAccess.makeDirectoriesWithin
      split
      · exact .pure _
      refine (makes_makeDirectory p).bind fun made => ?_
      cases made with
      | ok u => exact .pure _
      | error failure =>
          cases failure with
          | notFound =>
              -- The directory above is made first, and then this one is tried again.
              cases p.parent with
              | none => exact .pure _
              | some parent =>
                  refine (ih parent).bind fun above => ?_
                  cases above with
                  | error e => exact .pure _
                  | ok u => exact (makes_makeDirectory p).bind fun again => makes_settle p again
          | _ => exact makes_settle p _

/-- Making the directories of a file makes nothing else. -/
theorem yields_makeDirectories (p : Path) :
    Yields (FileAccess.makeDirectories p : WatchedStep σ _) fun _ es => OnlyDirectories es :=
  makes_makeDirectoriesWithin _ p

end

end Program

end TypedSql
