import Assay.World

/-!
# Actions

An action runs on a host, changes the world, and returns a value or a fault. A fault keeps the
changes made before it. `bind_run` is the rule of sequencing, and each primitive has its own
equation, so that proofs about programs never look inside `Action`.
-/

namespace Assay

def Action (α : Type) : Type :=
  Host → World → Except Fault α × World

namespace Action

variable {α β : Type}

def run (x : Action α) (h : Host) (w : World) : Except Fault α × World :=
  x h w

protected def pure (a : α) : Action α :=
  fun _ w => (.ok a, w)

protected def bind (x : Action α) (f : α → Action β) : Action β :=
  fun h w =>
    match x h w with
    | (.ok a, w) => f a h w
    | (.error e, w) => (.error e, w)

instance : Monad Action where
  pure := Action.pure
  bind := Action.bind

def fail (f : Fault) : Action α :=
  fun _ w => (.error f, w)

/-- Runs an action and hands over how it went, faults included. -/
def attempt (x : Action α) : Action (Except Fault α) :=
  fun h w =>
    match x h w with
    | (r, w) => (.ok r, w)

def host : Action Host :=
  fun h w => (.ok h, w)

def world : Action World :=
  fun _ w => (.ok w, w)

def modify (f : World → World) : Action Unit :=
  fun _ w => (.ok (), f w)

def ofExcept (r : Except Fault α) : Action α :=
  fun _ w => (r, w)

theorem ext {x y : Action α} (h : ∀ host w, x.run host w = y.run host w) : x = y :=
  funext fun host => funext fun w => h host w

@[simp] theorem pure_run (a : α) (h : Host) (w : World) :
    (pure a : Action α).run h w = (.ok a, w) := rfl

theorem bind_run (x : Action α) (f : α → Action β) (h : Host) (w : World) :
    (x >>= f).run h w =
      match x.run h w with
      | (.ok a, w) => (f a).run h w
      | (.error e, w) => (.error e, w) := rfl

@[simp] theorem fail_run (f : Fault) (h : Host) (w : World) :
    (fail f : Action α).run h w = (.error f, w) := rfl

@[simp] theorem attempt_run (x : Action α) (h : Host) (w : World) :
    (attempt x).run h w = (.ok (x.run h w).1, (x.run h w).2) := rfl

@[simp] theorem host_run (h : Host) (w : World) : host.run h w = (.ok h, w) := rfl

@[simp] theorem world_run (h : Host) (w : World) : world.run h w = (.ok w, w) := rfl

@[simp] theorem modify_run (f : World → World) (h : Host) (w : World) :
    (modify f).run h w = (.ok (), f w) := rfl

@[simp] theorem ofExcept_run (r : Except Fault α) (h : Host) (w : World) :
    (ofExcept r).run h w = (r, w) := rfl

protected theorem id_map (x : Action α) : id <$> x = x := by
  refine ext fun h w => ?_
  show Action.bind x _ h w = x h w
  unfold Action.bind
  rcases x h w with ⟨_ | _, _⟩ <;> rfl

protected theorem bind_assoc {γ : Type} (x : Action α) (f : α → Action β) (g : β → Action γ) :
    x >>= f >>= g = x >>= fun a => f a >>= g := by
  refine ext fun h w => ?_
  show Action.bind (Action.bind x f) g h w = Action.bind x _ h w
  unfold Action.bind
  rcases x h w with ⟨_ | _, _⟩ <;> rfl

instance : LawfulMonad Action :=
  LawfulMonad.mk' Action Action.id_map (fun _ _ => rfl) Action.bind_assoc

/-! ## Output, log and disk -/

def print (s : String) : Action Unit :=
  modify fun w => { w with output := w.output ++ [s] }

def printLine (s : String) : Action Unit :=
  print (s ++ "\n")

def complain (s : String) : Action Unit :=
  modify fun w => { w with complaints := w.complaints ++ [s] }

def log (level : Level) (source : Source) (message : String) : Action Unit :=
  modify fun w => { w with log := w.log ++ [⟨level, source, message⟩] }

def logInfo (source : Source) (message : String) : Action Unit :=
  log .info source message

/-- Records a job as taken up. -/
def start (job : Job) : Action Unit :=
  modify fun w => { w with started := w.started ++ [job] }

def disk : Action Disk := do
  return (← world).disk

def setDisk (d : Disk) : Action Unit :=
  modify fun w => { w with disk := d }

/-- Asks the disk something. -/
def askDisk (question : Disk → Except OsFault α) : Action α := do
  match question (← disk) with
  | .ok a => return a
  | .error f => fail (.disk f)

/-- Changes the disk. -/
def changeDisk (change : Disk → Except OsFault Disk) : Action Unit := do
  match change (← disk) with
  | .ok d => setDisk d
  | .error f => fail (.disk f)

/-- Refuses a text that the operating system cannot take. -/
def refuseNull (s : String) : Action Unit :=
  if Disk.hasNull s then fail .nullByte else return ()

/-- Makes a directory and the ancestors it lacks, unless they are too many. -/
def makeDirectories (path : Path) : Action Unit := do
  refuseNull path.text
  if (← host).maxMissing < (← disk).missingAncestors path then fail .tooDeep
  else
    let (d, result) := (← disk).makeDirectories path
    setDisk d
    match result with
    | .ok () => return ()
    | .error f => fail (.disk f)

end Action

end Assay
