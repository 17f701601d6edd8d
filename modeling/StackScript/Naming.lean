import StackScript.Config

/-!
# Names of containers

The container of a script is named after the script: its stem, a tag and an extension,
with dots between them.  A script without a stem of its own is called `module`; that goes
for paths without a file name, and for names such as `<string>` that stand for no file.

The container lies in the cache directory beside the script.
-/

namespace StackScript

/-- The tag of containers. -/
def implementationTag : String := "pyrite-01"

namespace ContainerOptions

/-- The stem for scripts that have none. -/
def fallbackStem : Path.Segment := "module".toList

/-- The stem that the container of a script gets. -/
def stem (script : Path) : Path.Segment :=
  match script.stem? with
  | none => fallbackStem
  | some s => if s = [] ∨ s.head? = some '<' then fallbackStem else s

/-- The file name of the container of a script. -/
def containerName (o : ContainerOptions) (script : Path) : String :=
  s!"{String.ofList (stem script)}.{o.tag.getD implementationTag}.{o.extension}"

/-- Where the container of a script lies. -/
def containerPath (o : ContainerOptions) (script : Path) : Path :=
  ((script.parent?.getD ⟨""⟩).join ⟨o.cacheDir⟩).join ⟨o.containerName script⟩

end ContainerOptions

end StackScript
