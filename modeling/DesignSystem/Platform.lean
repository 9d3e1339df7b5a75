import DesignSystem.Text.Case

/-!
# Platforms

A platform is named by an identifier in trimmed lowercase. Nine platforms are built in; others may
be registered.
-/

set_option autoImplicit false

namespace DesignSystem

/-- The identifier of a platform. -/
structure PlatformId where
  text : String
  deriving DecidableEq

/-- The identifier that a text stands for, whatever its letter case and the space around it. -/
def PlatformId.ofText (s : String) : PlatformId := ⟨Text.lower (Text.trim s)⟩

/-- The built-in platforms. -/
inductive Platform
  | react | vue | angular | svelte | flutter | swiftUI | compose | css | tailwind
  deriving DecidableEq

/-- What kind of target a platform is. -/
inductive PlatformFamily
  | web | mobile | native | stylesheet
  deriving DecidableEq

/-- The name of a family. -/
def PlatformFamily.name : PlatformFamily → String
  | web => "web"
  | mobile => "mobile"
  | native => "native"
  | stylesheet => "stylesheet"

namespace Platform

/-- All built-in platforms. -/
def all : List Platform :=
  [react, vue, angular, svelte, flutter, swiftUI, compose, css, tailwind]

/-- The text of a platform's identifier. -/
def name : Platform → String
  | react => "react"
  | vue => "vue"
  | angular => "angular"
  | svelte => "svelte"
  | flutter => "flutter"
  | swiftUI => "ios-swift"
  | compose => "android-kotlin"
  | css => "css"
  | tailwind => "tailwind"

/-- The identifier of a platform. -/
def id (p : Platform) : PlatformId := ⟨p.name⟩

/-- The platform of an exact name. -/
def ofName? (s : String) : Option Platform := all.find? (·.name = s)

/-- The family of a platform. -/
def family : Platform → PlatformFamily
  | react | vue | angular | svelte => .web
  | flutter => .mobile
  | swiftUI | compose => .native
  | css | tailwind => .stylesheet

end Platform

/-- The built-in platform that an identifier names. -/
def PlatformId.builtin? (id : PlatformId) : Option Platform := Platform.ofName? id.text

end DesignSystem
