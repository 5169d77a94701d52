import NativeUi.Json.Reader
import NativeUi.Path
import NativeUi.Platform.Android
import NativeUi.Platform.Ios
import NativeUi.Platform.MacOs
import NativeUi.Source.Dialect

/-!
# Platforms

Each native platform has a dialect, a place for its output, and a list of files made of templates.
-/
namespace NativeUi

inductive Platform where
  | android
  | ios
  | macos
deriving DecidableEq

/-- A file of a project: its template, where it goes, and whether it is copied unfilled. The place
is itself a template. -/
structure ManifestEntry where
  template : String
  output : String
  verbatim : Bool

namespace Platform

def all : List Platform := [.android, .ios, .macos]

def name : Platform → String
  | .android => "android"
  | .ios => "ios"
  | .macos => "macos"

def framework : Platform → String
  | .android => "Jetpack Compose"
  | .ios => "SwiftUI (iOS)"
  | .macos => "SwiftUI (macOS)"

def dialect : Platform → Source.Dialect
  | .android => .compose
  | .ios => .swiftuiCompact
  | .macos => .swiftui

def outputNames : Platform → List String
  | .android => ["android"]
  | .ios => ["ios"]
  | .macos => ["apple", "macos"]

def manifest : Platform → List ManifestEntry
  | .android => [
    ⟨"MainActivity.kt.hbs",
      "app/src/main/java/\x7b\x7bpackage_path\x7d\x7d/MainActivity.kt", false⟩,
    ⟨"Theme.kt.hbs",
      "app/src/main/java/\x7b\x7bpackage_path\x7d\x7d/ui/theme/Theme.kt", false⟩,
    ⟨"AndroidManifest.xml.hbs", "app/src/main/AndroidManifest.xml", false⟩,
    ⟨"app.build.gradle.kts.hbs", "app/build.gradle.kts", false⟩,
    ⟨"settings.gradle.kts.hbs", "settings.gradle.kts", false⟩]
  | .ios => [
    ⟨"ContentView.swift.hbs", "ContentView.swift", false⟩,
    ⟨"ForgeApp.swift", "ForgeApp.swift", true⟩,
    ⟨"Info.plist.hbs", "Info.plist", false⟩]
  | .macos => [
    ⟨"ContentView.swift.hbs", "ForgeApp/ContentView.swift", false⟩,
    ⟨"App.swift", "ForgeApp/App.swift", true⟩,
    ⟨"Theme.swift", "ForgeApp/Theme.swift", true⟩]

def builtin? (p : Platform) (template : String) : Option String :=
  match p, template with
  | .android, "MainActivity.kt.hbs" => some Android.mainActivity
  | .android, "Theme.kt.hbs" => some Android.theme
  | .android, "AndroidManifest.xml.hbs" => some Android.manifest
  | .android, "app.build.gradle.kts.hbs" => some Android.buildScript
  | .android, "settings.gradle.kts.hbs" => some Android.settings
  | .ios, "ContentView.swift.hbs" => some Ios.contentView
  | .ios, "ForgeApp.swift" => some Ios.app
  | .ios, "Info.plist.hbs" => some Ios.infoPlist
  | .macos, "ContentView.swift.hbs" => some MacOs.contentView
  | .macos, "App.swift" => some MacOs.app
  | .macos, "Theme.swift" => some MacOs.theme
  | _, _ => none

def ofName? (name : String) : Option Platform := all.find? fun p => p.name == name

def read (d : Json.Draft) : Except Json.ReadError Platform := do
  let name ← d.readVariant (all.map Platform.name)
  .ok ((ofName? name).getD .android)

end Platform

end NativeUi
