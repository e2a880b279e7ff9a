import Assay.Action
import Assay.Backend

/-!
# Directories for results

Before a tool runs, whatever an earlier run left at the place for its results is removed. A
directory goes with all it holds; of a link only the link goes, never its target. What cannot be
removed stops the job.

Entries have no permissions, so a path can always be looked at, and a directory is removed with all
it holds or stays as it is.
-/

namespace Assay.OutputDir

/-- Removes an entry that is no directory; a failure is found out afterwards. -/
def removeEntry (path : Path) : Action Unit := do
  if (← Action.host).pinned path then return ()
  else
    match (← Action.disk).remove path.text with
    | .ok d => Action.setDisk d
    | .error _ => return ()

/-- Removes a directory with all it holds, or nothing of it. -/
def removeTree (path : Path) : Action Unit := do
  if (← Action.host).pinned path then return ()
  else Action.setDisk ((← Action.disk).removeTree path)

/-- Whether a directory is at the place, and not a link to one. -/
def isTree (path : Path) : Action Bool := do
  if ← Action.askDisk fun d => d.isDirectory? path.text then
    return !(← Action.askDisk fun d => d.isLink? path.text)
  else return false

/-- Whether anything is at the place, links that lead nowhere included. -/
def isOccupied (path : Path) : Action Bool := do
  if ← Action.askDisk fun d => d.exists? path.text then return true
  else Action.askDisk fun d => d.isLink? path.text

/-- Removes what is at the place. -/
def clear (path : Path) : Action Unit := do
  if ← isTree path then removeTree path
  else if ← isOccupied path then removeEntry path
  else return ()

/-- Makes the place ready for a job's results. Some tools want the directory to be there, others
want it not to be there. Canned output needs no place. -/
def prepare (b : Backend) (c : Config) (job : Job) : Action Path := do
  let path := b.outputDir c job
  match b with
  | .canned _ => return path
  | _ =>
    clear path
    if ← Action.askDisk fun d => d.exists? path.text then
      Action.fail (.job (.outputInTheWay path.text))
    else
      Action.makeDirectories (if b.tool.wantsOutputDir then path else path.parent)
      return path

end Assay.OutputDir
