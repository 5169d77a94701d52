import NativeUi.Text.Lines

/-!
# The iOS project

The templates of an app that shows the lowered trees with SwiftUI.
-/
namespace NativeUi.Platform.Ios

def contentView : String := Text.ofLines [
  "import SwiftUI",
  "",
  "struct ContentView: View \x7b",
  "    var body: some View \x7b",
  "\x7b\x7bindent content 8\x7d\x7d",
  "    \x7d",
  "\x7d",
  "",
  "#Preview \x7b",
  "    ContentView()",
  "\x7d"]

def app : String := Text.ofLines [
  "import SwiftUI",
  "",
  "@main",
  "struct ForgeApp: App \x7b",
  "    var body: some Scene \x7b",
  "        WindowGroup \x7b",
  "            ContentView()",
  "        \x7d",
  "    \x7d",
  "\x7d"]

def infoPlist : String := Text.ofLines [
  "<?xml version=\"1.0\" encoding=\"UTF-8\"?>",
  "<!DOCTYPE plist PUBLIC \"-//Apple//DTD PLIST 1.0//EN\" \"http://www.apple.com/DTDs/PropertyList-1.0.dtd\">",
  "<plist version=\"1.0\">",
  "<dict>",
  "\t<key>CFBundleName</key>",
  "\t<string>\x7b\x7bxml_escape app_name\x7d\x7d</string>",
  "\t<key>CFBundleIdentifier</key>",
  "\t<string>\x7b\x7bxml_escape package_id\x7d\x7d</string>",
  "\t<key>CFBundleExecutable</key>",
  "\t<string>ForgeApp</string>",
  "\t<key>CFBundleShortVersionString</key>",
  "\t<string>0.1.0</string>",
  "</dict>",
  "</plist>"]

end NativeUi.Platform.Ios
