import NativeUi.Text.Lines

/-!
# The Android project

The templates of a Gradle project that shows the lowered trees with Jetpack Compose.
-/
namespace NativeUi.Platform.Android

def mainActivity : String := Text.ofLines [
  "package \x7b\x7bpackage_id\x7d\x7d",
  "",
  "import android.os.Bundle",
  "import android.util.Log",
  "import androidx.activity.ComponentActivity",
  "import androidx.activity.compose.setContent",
  "import androidx.compose.foundation.layout.*",
  "import androidx.compose.material3.*",
  "import androidx.compose.runtime.Composable",
  "import androidx.compose.ui.Modifier",
  "import androidx.compose.ui.tooling.preview.Preview",
  "import \x7b\x7bpackage_id\x7d\x7d.ui.theme.AppTheme",
  "",
  "class MainActivity : ComponentActivity() \x7b",
  "    override fun onCreate(savedInstanceState: Bundle?) \x7b",
  "        super.onCreate(savedInstanceState)",
  "        setContent \x7b",
  "            AppTheme \x7b",
  "                Surface(",
  "                    modifier = Modifier.fillMaxSize(),",
  "                    color = MaterialTheme.colorScheme.background",
  "                ) \x7b",
  "                    MainScreen()",
  "                \x7d",
  "            \x7d",
  "        \x7d",
  "    \x7d",
  "\x7d",
  "",
  "@Composable",
  "fun MainScreen() \x7b",
  "\x7b\x7bindent content 4\x7d\x7d",
  "\x7d",
  "",
  "@Preview(showBackground = true)",
  "@Composable",
  "fun MainScreenPreview() \x7b",
  "    AppTheme \x7b",
  "        MainScreen()",
  "    \x7d",
  "\x7d"]

def theme : String := Text.ofLines [
  "package \x7b\x7bpackage_id\x7d\x7d.ui.theme",
  "",
  "import androidx.compose.foundation.isSystemInDarkTheme",
  "import androidx.compose.material3.MaterialTheme",
  "import androidx.compose.material3.darkColorScheme",
  "import androidx.compose.material3.lightColorScheme",
  "import androidx.compose.runtime.Composable",
  "",
  "private val LightColors = lightColorScheme()",
  "private val DarkColors = darkColorScheme()",
  "",
  "@Composable",
  "fun AppTheme(",
  "    darkTheme: Boolean = isSystemInDarkTheme(),",
  "    content: @Composable () -> Unit",
  ") \x7b",
  "    MaterialTheme(",
  "        colorScheme = if (darkTheme) DarkColors else LightColors,",
  "        content = content",
  "    )",
  "\x7d"]

def manifest : String := Text.ofLines [
  "<?xml version=\"1.0\" encoding=\"utf-8\"?>",
  "<manifest xmlns:android=\"http://schemas.android.com/apk/res/android\">",
  "",
  "    <application",
  "        android:label=\"\x7b\x7bxml_escape app_name\x7d\x7d\"",
  "        android:theme=\"@android:style/Theme.Material.Light.NoActionBar\">",
  "        <activity",
  "            android:name=\".MainActivity\"",
  "            android:exported=\"true\">",
  "            <intent-filter>",
  "                <action android:name=\"android.intent.action.MAIN\" />",
  "                <category android:name=\"android.intent.category.LAUNCHER\" />",
  "            </intent-filter>",
  "        </activity>",
  "    </application>",
  "",
  "</manifest>"]

def buildScript : String := Text.ofLines [
  "plugins \x7b",
  "    id(\"com.android.application\")",
  "    id(\"org.jetbrains.kotlin.android\")",
  "\x7d",
  "",
  "android \x7b",
  "    namespace = \"\x7b\x7bpackage_id\x7d\x7d\"",
  "    compileSdk = 34",
  "",
  "    defaultConfig \x7b",
  "        applicationId = \"\x7b\x7bpackage_id\x7d\x7d\"",
  "        minSdk = 24",
  "        targetSdk = 34",
  "        versionCode = 1",
  "        versionName = \"0.1.0\"",
  "    \x7d",
  "",
  "    buildFeatures \x7b",
  "        compose = true",
  "    \x7d",
  "",
  "    composeOptions \x7b",
  "        kotlinCompilerExtensionVersion = \"1.5.8\"",
  "    \x7d",
  "\x7d",
  "",
  "dependencies \x7b",
  "    implementation(platform(\"androidx.compose:compose-bom:2024.02.00\"))",
  "    implementation(\"androidx.activity:activity-compose:1.8.2\")",
  "    implementation(\"androidx.compose.material3:material3\")",
  "    implementation(\"androidx.compose.ui:ui\")",
  "    implementation(\"androidx.compose.ui:ui-tooling-preview\")",
  "    debugImplementation(\"androidx.compose.ui:ui-tooling\")",
  "\x7d"]

def settings : String := Text.ofLines [
  "pluginManagement \x7b",
  "    repositories \x7b",
  "        google()",
  "        mavenCentral()",
  "        gradlePluginPortal()",
  "    \x7d",
  "    plugins \x7b",
  "        id(\"com.android.application\") version \"8.2.2\"",
  "        id(\"org.jetbrains.kotlin.android\") version \"1.9.22\"",
  "    \x7d",
  "\x7d",
  "",
  "dependencyResolutionManagement \x7b",
  "    repositories \x7b",
  "        google()",
  "        mavenCentral()",
  "    \x7d",
  "\x7d",
  "",
  "rootProject.name = \"\x7b\x7bkotlin_string app_name\x7d\x7d\"",
  "include(\":app\")"]

end NativeUi.Platform.Android
