/- source: domain/init/stack.ts
   digest: The languages, toolchains, markers and commands the stack classifier knows. -/

import Kratos.Foundation.Text

set_option autoImplicit false

namespace Kratos.Initialization

open Foundation.Text

/-- Directories whose contents are somebody else's code or this tool's own state. -/
def SCAN_EXCLUDED_DIRECTORIES : List String :=
  [".brain", ".git", ".gradle", ".idea", ".mypy_cache", ".next", ".nuxt", ".pytest_cache", ".svn",
   ".terraform", ".tox", ".venv", "Pods", "__pycache__", "bin", "build", "coverage", "deps",
   "dist", "node_modules", "obj", "out", "target", "vendor", "venv"]

/-- The toolchains the marker table can name. -/
inductive StackId
  | bun | clojure | cmake | dart | deno | dotnet | elixir | erlang | go | haskell | java | julia
  | lua | node | perl | php | python | r | ruby | rust | scala | swift | zig
  deriving DecidableEq, Repr

inductive LanguageId
  | assembly | c | clojure | coffeescript | cpp | crystal | csharp | css | d | dart | elixir | elm
  | erlang | fortran | fsharp | gdscript | go | groovy | haskell | html | java | javascript
  | julia | kotlin | less | lisp | lua | nim | objectiveC | ocaml | pascal | perl | php
  | powershell | protobuf | python | r | racket | ruby | rust | sass | scala | scheme | shell
  | solidity | sql | svelte | swift | terraform | typescript | visualbasic | vue | zig
  deriving DecidableEq, Repr

namespace StackId

def text : StackId → String
  | bun => "bun"
  | clojure => "clojure"
  | cmake => "cmake"
  | dart => "dart"
  | deno => "deno"
  | dotnet => "dotnet"
  | elixir => "elixir"
  | erlang => "erlang"
  | go => "go"
  | haskell => "haskell"
  | java => "java"
  | julia => "julia"
  | lua => "lua"
  | node => "node"
  | perl => "perl"
  | php => "php"
  | python => "python"
  | r => "r"
  | ruby => "ruby"
  | rust => "rust"
  | scala => "scala"
  | swift => "swift"
  | zig => "zig"

end StackId

namespace LanguageId

def text : LanguageId → String
  | assembly => "assembly"
  | c => "c"
  | clojure => "clojure"
  | coffeescript => "coffeescript"
  | cpp => "cpp"
  | crystal => "crystal"
  | csharp => "csharp"
  | css => "css"
  | d => "d"
  | dart => "dart"
  | elixir => "elixir"
  | elm => "elm"
  | erlang => "erlang"
  | fortran => "fortran"
  | fsharp => "fsharp"
  | gdscript => "gdscript"
  | go => "go"
  | groovy => "groovy"
  | haskell => "haskell"
  | html => "html"
  | java => "java"
  | javascript => "javascript"
  | julia => "julia"
  | kotlin => "kotlin"
  | less => "less"
  | lisp => "lisp"
  | lua => "lua"
  | nim => "nim"
  | objectiveC => "objective-c"
  | ocaml => "ocaml"
  | pascal => "pascal"
  | perl => "perl"
  | php => "php"
  | powershell => "powershell"
  | protobuf => "protobuf"
  | python => "python"
  | r => "r"
  | racket => "racket"
  | ruby => "ruby"
  | rust => "rust"
  | sass => "sass"
  | scala => "scala"
  | scheme => "scheme"
  | shell => "shell"
  | solidity => "solidity"
  | sql => "sql"
  | svelte => "svelte"
  | swift => "swift"
  | terraform => "terraform"
  | typescript => "typescript"
  | visualbasic => "visualbasic"
  | vue => "vue"
  | zig => "zig"

def all : List LanguageId :=
  [assembly, c, clojure, coffeescript, cpp, crystal, csharp, css, d, dart, elixir, elm, erlang,
   fortran, fsharp, gdscript, go, groovy, haskell, html, java, javascript, julia, kotlin, less,
   lisp, lua, nim, objectiveC, ocaml, pascal, perl, php, powershell, protobuf, python, r, racket,
   ruby, rust, sass, scala, scheme, shell, solidity, sql, svelte, swift, terraform, typescript,
   visualbasic, vue, zig]

theorem mem_all (id : LanguageId) : id ∈ all := by cases id <;> decide

theorem nodup_all : all.Nodup := by decide

def named (name : JsString) : Option LanguageId := all.find? fun id => js id.text == name

theorem named_text (id : LanguageId) : named (js id.text) = some id := by cases id <;> decide

theorem text_injective {left right : LanguageId} (same : js left.text = js right.text) : left = right := by
  have found := named_text right
  rw [← same, named_text] at found
  exact Option.some.inj found

theorem text_length (id : LanguageId) : 1 ≤ (js id.text).length ∧ (js id.text).length ≤ 12 := by
  cases id <;> decide

end LanguageId

def LANGUAGE_EXTENSIONS : List (String × LanguageId) :=
  [(".asm", .assembly), (".bash", .shell), (".c", .c), (".cc", .cpp), (".cjs", .javascript),
   (".cl", .lisp), (".clj", .clojure), (".cljc", .clojure), (".cljs", .clojure),
   (".coffee", .coffeescript), (".cpp", .cpp), (".cr", .crystal), (".cs", .csharp),
   (".css", .css), (".cts", .typescript), (".cxx", .cpp), (".d", .d), (".dart", .dart),
   (".elm", .elm), (".erl", .erlang), (".ex", .elixir), (".exs", .elixir), (".f90", .fortran),
   (".f95", .fortran), (".fs", .fsharp), (".fsi", .fsharp), (".fsx", .fsharp), (".gd", .gdscript),
   (".go", .go), (".groovy", .groovy), (".h", .c), (".hh", .cpp), (".hpp", .cpp),
   (".hrl", .erlang), (".hs", .haskell), (".htm", .html), (".html", .html), (".java", .java),
   (".jl", .julia), (".js", .javascript), (".jsx", .javascript), (".kt", .kotlin),
   (".kts", .kotlin), (".less", .less), (".lisp", .lisp), (".lua", .lua), (".m", .objectiveC),
   (".mjs", .javascript), (".ml", .ocaml), (".mli", .ocaml), (".mm", .objectiveC),
   (".mts", .typescript), (".nim", .nim), (".pas", .pascal), (".php", .php), (".pl", .perl),
   (".pm", .perl), (".proto", .protobuf), (".ps1", .powershell), (".py", .python),
   (".pyi", .python), (".r", .r), (".rb", .ruby), (".rkt", .racket), (".rs", .rust),
   (".sass", .sass), (".sc", .scala), (".scala", .scala), (".scm", .scheme), (".scss", .sass),
   (".sh", .shell), (".sol", .solidity), (".sql", .sql), (".svelte", .svelte), (".swift", .swift),
   (".tf", .terraform), (".ts", .typescript), (".tsx", .typescript), (".vb", .visualbasic),
   (".vue", .vue), (".zig", .zig), (".zsh", .shell)]

def EXACT_MARKERS : List (String × StackId) :=
  [("Cargo.toml", .rust), ("CMakeLists.txt", .cmake), ("Gemfile", .ruby), ("Makefile.PL", .perl),
   ("Package.swift", .swift), ("Pipfile", .python), ("Project.toml", .julia), ("Rakefile", .ruby),
   ("build.gradle", .java), ("build.gradle.kts", .java), ("build.sbt", .scala),
   ("build.zig", .zig), ("build.zig.zon", .zig), ("bun.lock", .bun), ("bun.lockb", .bun),
   ("bunfig.toml", .bun), ("composer.json", .php), ("cpanfile", .perl), ("deno.json", .deno),
   ("deno.jsonc", .deno), ("deno.lock", .deno), ("deps.edn", .clojure), ("go.mod", .go),
   ("go.work", .go), ("mix.exs", .elixir), ("package.json", .node), ("pom.xml", .java),
   ("project.clj", .clojure), ("pubspec.yaml", .dart), ("pyproject.toml", .python),
   ("rebar.config", .erlang), ("renv.lock", .r), ("requirements.txt", .python),
   ("settings.gradle", .java), ("settings.gradle.kts", .java), ("setup.py", .python),
   ("stack.yaml", .haskell)]

def SUFFIX_MARKERS : List (String × StackId) :=
  [(".Rproj", .r), (".cabal", .haskell), (".csproj", .dotnet), (".fsproj", .dotnet),
   (".gemspec", .ruby), (".rockspec", .lua), (".sln", .dotnet), (".vbproj", .dotnet)]

/-- The four answers a command derivation can fill. -/
inductive CommandSlot
  | test | lint | build | run
  deriving DecidableEq, Repr

def COMMAND_SLOTS : List CommandSlot := [.test, .lint, .build, .run]

/-- What a toolchain calls its own test, lint, build and run. -/
structure StackCommands where
  test : Option String
  lint : Option String
  build : Option String
  run : Option String
  deriving DecidableEq, Repr

/-- No verb of its own that a project of this ecosystem reliably answers to. -/
def ASK : StackCommands := { test := none, lint := none, build := none, run := none }

def STACK_COMMANDS : StackId → StackCommands
  | .bun => { test := some "bun test", lint := none, build := none, run := none }
  | .clojure => ASK
  | .cmake =>
      { test := some "ctest --test-dir build", lint := none,
        build := some "cmake --build build", run := none }
  | .dart =>
      { test := some "dart test", lint := some "dart analyze",
        build := none, run := some "dart run" }
  | .deno => { test := some "deno test", lint := some "deno lint", build := none, run := none }
  | .dotnet =>
      { test := some "dotnet test", lint := some "dotnet format",
        build := some "dotnet build", run := some "dotnet run" }
  | .elixir =>
      { test := some "mix test", lint := none,
        build := some "mix compile", run := some "mix run" }
  | .erlang =>
      { test := some "rebar3 eunit", lint := none,
        build := some "rebar3 compile", run := some "rebar3 shell" }
  | .go =>
      { test := some "go test ./...", lint := some "go vet ./...",
        build := some "go build ./...", run := some "go run ." }
  | .haskell => ASK
  | .java => ASK
  | .julia => ASK
  | .lua => ASK
  | .node => ASK
  | .perl => ASK
  | .php => ASK
  | .python => { test := some "pytest", lint := none, build := none, run := none }
  | .r => ASK
  | .ruby => ASK
  | .rust =>
      { test := some "cargo test", lint := some "cargo clippy",
        build := some "cargo build", run := some "cargo run" }
  | .scala =>
      { test := some "sbt test", lint := none,
        build := some "sbt compile", run := some "sbt run" }
  | .swift =>
      { test := some "swift test", lint := none,
        build := some "swift build", run := some "swift run" }
  | .zig =>
      { test := some "zig build test", lint := none,
        build := some "zig build", run := some "zig build run" }

/-- `canonical[slot]`. -/
def StackCommands.at (commands : StackCommands) : CommandSlot → Option String
  | .test => commands.test
  | .lint => commands.lint
  | .build => commands.build
  | .run => commands.run

end Kratos.Initialization
