import TagPress.Context
import TagPress.Path
import TagPress.Source

/-!
# Security gates

A gate is asked about every modifier that is used and every source that is found. A modifier that is
not trusted is passed over; a path that is not trusted is refused. A policy is a gate that lists the
directories that sources may come from and the modifiers that may be used.
-/

namespace TagPress

/-- Answers the questions about trust. -/
structure Gate where
  /-- Whether a modifier may be used in a context. -/
  trustsModifier : Context → String → Bool
  /-- Refuses a path that is not trusted for a class of sources. -/
  checkPath : String → ResourceClass → Except ResourceError Unit

/-- The directories and modifiers that are trusted. -/
structure Policy where
  /-- Directories trusted for templates. -/
  templateDirs : List String := []
  /-- Directories trusted for configuration files. -/
  configDirs : List String := []
  /-- Directories trusted for both. -/
  secureDirs : List String := []
  /-- If not empty, the only modifiers that are trusted. -/
  allowedModifiers : List String := []
  /-- Modifiers that are never trusted. -/
  disabledModifiers : List String := []
  deriving DecidableEq

namespace Policy

/-- Whether a modifier may be used. -/
def trustsModifier (p : Policy) (name : String) : Bool :=
  -- A modifier that is on both lists is not trusted.
  !p.disabledModifiers.contains name
    && (p.allowedModifiers.isEmpty || p.allowedModifiers.contains name)

/-- The directories that are trusted for a class of sources. -/
def trustedDirs (p : Policy) (sort : ResourceClass) : List String :=
  (match sort with | .template => p.templateDirs | .config => p.configDirs) ++ p.secureDirs

/-- Whether a path lies below a directory that is trusted for the class. -/
def trustsPath (p : Policy) (path : String) (sort : ResourceClass) : Bool :=
  (p.trustedDirs sort).any (Path.startsWith path)

/-- Refuses a path that is not trusted; the error names its directory. -/
def checkPath (p : Policy) (path : String) (sort : ResourceClass) : Except ResourceError Unit :=
  if p.trustsPath path sort then .ok ()
  else .error (.untrustedDirectory ((Path.parent? path).getD path))

/-- The gate of a policy; it answers alike in every context. -/
def gate (p : Policy) : Gate where
  trustsModifier _ := p.trustsModifier
  checkPath := p.checkPath

end Policy

end TagPress
