import DocSite.Macro.Pass
import DocSite.Site.Scope

/-!
# Component fields

The macro `component:name@version[field]` shows a field of a release. Without a version it is the
release that counts as the latest; `latest` is the newest release proper, which is not the
development line `main`. A macro that names nothing shows nothing.

* `ReleaseField` : the fields of a release.
* `Component.select?` : the release that a macro means.
* `ComponentField.show?` : the field that a macro shows.
* `ComponentField.handler` : the handler of the macro.
-/

namespace DocSite

/-- A field of a release. -/
inductive ReleaseField where
  | version
  | displayVersion
  | title
  deriving DecidableEq, Repr

namespace ReleaseField

/-- The field with a name. -/
def ofName? (s : Text) : Option ReleaseField :=
  if s = "version".toList then some version
  else if s = "displayVersion".toList then some displayVersion
  else if s = "title".toList then some title
  else none

/-- The field of a release. -/
def get (r : Release) : ReleaseField → Text
  | version => r.version
  | displayVersion => r.displayVersion
  | title => r.title

end ReleaseField

namespace Component

/-- The version of the development line. -/
def developmentVersion : Text := "main".toList

/-- The newest release, or the second newest if the newest is the development line. -/
def newestRelease? (c : Component) : Option Release :=
  match c.releases with
  | first :: second :: _ => some (if first.version = developmentVersion then second else first)
  | rs => rs.head?

/-- The release that a version means, or the latest without one. -/
def select? (c : Component) (version? : Option Text) : Option Release :=
  match version? with
  | none => c.latestRelease?
  | some version =>
    if version = "latest".toList then c.newestRelease? else c.release? version

end Component

namespace ComponentField

/-- The component and the version in the target of a macro. -/
def split (target : Text) : Text × Option Text :=
  match Text.splitFirst? '@' target with
  | some (name, version) => (name, some version)
  | none => (target, none)

/-- The field that a macro shows. -/
def show? (c : Catalog) (call : Call) : Option Text := do
  let name ← (← call.attributes.only?)
  let field ← ReleaseField.ofName? name
  let (component, version?) := split call.target
  let release ← (← c.component? component).select? version?
  some (field.get release)

/-- The handler of the macro. -/
def handler : InlineHandler Catalog where
  name := "component".toList
  run call := do return .text ((show? (← get) call).getD [])

end ComponentField

end DocSite
