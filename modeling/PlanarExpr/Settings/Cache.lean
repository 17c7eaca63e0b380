import PlanarExpr.Settings

namespace PlanarExpr

/-!
# Settings that are kept

The environment is read when the settings are first needed. From then on they
stay as they are until they are forgotten, whatever happens to the
environment. Settings that could not be read are not kept.
-/

/-- The settings that are in force, if any, and the environment they come from. -/
structure SettingsCache where
  environment : Environment
  kept : Option Settings

namespace SettingsCache

/-- No settings are in force yet. -/
def fresh (environment : Environment) : SettingsCache :=
  { environment := environment, kept := none }

/-- The settings in force, read now if none are kept. -/
def get (cache : SettingsCache) : Except SettingsError Settings × SettingsCache :=
  match cache.kept with
  | some settings => (.ok settings, cache)
  | none =>
      match Settings.ofEnvironment cache.environment with
      | .error problem => (.error problem, cache)
      | .ok settings => (.ok settings, { cache with kept := some settings })

/-- Forgets the settings, so that they are read again. -/
def reset (cache : SettingsCache) : SettingsCache :=
  { cache with kept := none }

/-- The environment has changed; the settings in force have not. -/
def withEnvironment
    (cache : SettingsCache)
    (environment : Environment) :
    SettingsCache :=
  { cache with environment := environment }

/-- Settings that were once read are kept. -/
theorem get_get (cache : SettingsCache) :
    cache.get.2.get = cache.get := by
  rcases cache with ⟨environment, kept⟩
  cases kept with
  | some settings =>
      rfl
  | none =>
      cases read : Settings.ofEnvironment environment <;> simp [get, read]

end SettingsCache

end PlanarExpr
