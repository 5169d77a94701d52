import NativeUi.Text.Lines

/-!
# The macOS project

The templates of a desktop app that shows the lowered trees with SwiftUI.
-/
namespace NativeUi.Platform.MacOs

def contentView : String := Text.ofLines [
  "import SwiftUI",
  "",
  "struct ContentView: View \x7b",
  "    var body: some View \x7b",
  "        VStack(spacing: 0) \x7b",
  "            // Generated Content",
  "\x7b\x7bindent content 12\x7d\x7d",
  "        \x7d",
  "        .frame(minWidth: 400, minHeight: 300)",
  "        .padding()",
  "        .background(Theme.backgroundColor)",
  "    \x7d",
  "\x7d",
  "",
  "#Preview \x7b",
  "    ContentView()",
  "\x7d"]

def app : String := Text.ofLines [
  "import SwiftUI",
  "",
  "@main",
  "struct ForgeApp: App \x7b",
  "    var body: some Scene \x7b",
  "        WindowGroup \x7b",
  "            ContentView()",
  "        \x7d",
  "        .windowStyle(.titleBar)",
  "    \x7d",
  "\x7d"]

def theme : String := Text.ofLines [
  "import SwiftUI",
  "",
  "enum Theme \x7b",
  "    static let backgroundColor = Color(nsColor: .windowBackgroundColor)",
  "    static let foregroundColor = Color.primary",
  "    static let accentColor = Color.accentColor",
  "\x7d"]

end NativeUi.Platform.MacOs
