import Mathlib.Logic.Function.Basic

/-!
The cache from local ports to process names. A name that the cache lacks is
asked from the operating system on Windows only, and is then kept.
-/
namespace AetherLens.ProcessMap

/-- Where the engine runs. On Windows the system names the processes. -/
inductive Platform
  | windows (processNameByPid : UInt32 → Option String)
  | other

/-- Ports are held under their protocol number. -/
structure ProcessCache where
  portMap : UInt8 × UInt16 → Option UInt32
  nameCache : UInt32 → Option String

def ProcessCache.new : ProcessCache := ⟨fun _ => none, fun _ => none⟩

def ProcessCache.insertName (cache : ProcessCache) (pid : UInt32) (name : String) :
    ProcessCache :=
  { cache with nameCache := Function.update cache.nameCache pid (some name) }

/-- The name of the process that owns a port, and the cache after the lookup. -/
def ProcessCache.getProcessName (platform : Platform) (cache : ProcessCache) (protocol : UInt8)
    (port : UInt16) : Option String × ProcessCache :=
  match cache.portMap (protocol, port) with
  | none => (none, cache)
  | some pid =>
    match cache.nameCache pid with
    | some name => (some name, cache)
    | none =>
      match platform with
      | .other => (none, cache)
      | .windows processNameByPid =>
        match processNameByPid pid with
        | some name => (some name, cache.insertName pid name)
        | none => (none, cache)

end AetherLens.ProcessMap
