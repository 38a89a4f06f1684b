import Sandscript.Text.Basic

/-!
# The prelude

Every program starts by loading a module that binds the toolchain's services into the program's
global scope. The module is host text and is written beside the program when that is run.
-/

namespace Sandscript

namespace Prelude

/-- The name of the prelude's file. -/
def fileName : String := "fenrir-prelude.mjs"

/-- The lines of the prelude. -/
def source : List String := [
  "// fenrir runtime prelude: binds the capability bridge into the program's",
  "// global scope before any user code runs.",
  "import * as __fenrirFs from \"node:fs\";",
  "import * as __fenrirPath from \"node:path\";",
  "import \x7b execSync as __fenrirExecSync \x7d from \"node:child_process\";",
  "import \x7b createRequire as __fenrirCreateRequire \x7d from \"node:module\";",
  "",
  "class FenrirBridge \x7b",
  "    static #instance = null;",
  "",
  "    static instance() \x7b",
  "        if (FenrirBridge.#instance === null) \x7b",
  "            FenrirBridge.#instance = new FenrirBridge();",
  "        \x7d",
  "        return FenrirBridge.#instance;",
  "    \x7d",
  "",
  "    #modules = new Map();",
  "    #require = __fenrirCreateRequire(__fenrirPath.join(process.cwd(), \"package.json\"));",
  "",
  "    log(...args) \x7b",
  "        const parts = args.map((arg) => \x7b",
  "            if (typeof arg === \"string\") \x7b",
  "                return arg;",
  "            \x7d",
  "            try \x7b",
  "                const json = JSON.stringify(arg);",
  "                return json === undefined ? String(arg) : json;",
  "            \x7d catch \x7b",
  "                return String(arg);",
  "            \x7d",
  "        \x7d);",
  "        process.stdout.write(parts.join(\" \") + \"\\n\");",
  "    \x7d",
  "",
  "    #resolve(file) \x7b",
  "        return __fenrirPath.resolve(process.cwd(), file);",
  "    \x7d",
  "",
  "    readFile(file) \x7b",
  "        const target = this.#resolve(file);",
  "        try \x7b",
  "            return __fenrirFs.readFileSync(target, \"utf8\");",
  "        \x7d catch (error) \x7b",
  "            throw new Error(`Failed to read file $\x7btarget\x7d: $\x7berror.message\x7d`);",
  "        \x7d",
  "    \x7d",
  "",
  "    writeFile(file, content) \x7b",
  "        const target = this.#resolve(file);",
  "        try \x7b",
  "            __fenrirFs.writeFileSync(target, content, \"utf8\");",
  "        \x7d catch (error) \x7b",
  "            throw new Error(`Failed to write file $\x7btarget\x7d: $\x7berror.message\x7d`);",
  "        \x7d",
  "    \x7d",
  "",
  "    async fetch(url, options = \x7b\x7d) \x7b",
  "        const response = await globalThis.fetch(url, options);",
  "        const body = await response.text();",
  "        try \x7b",
  "            return JSON.parse(body);",
  "        \x7d catch \x7b",
  "            return body;",
  "        \x7d",
  "    \x7d",
  "",
  "    module(name) \x7b",
  "        if (this.#modules.has(name)) \x7b",
  "            return this.#modules.get(name);",
  "        \x7d",
  "        const loaded = this.#require(name);",
  "        this.#modules.set(name, loaded);",
  "        return loaded;",
  "    \x7d",
  "",
  "    exec(command) \x7b",
  "        try \x7b",
  "            return __fenrirExecSync(command, \x7b encoding: \"utf8\", " ++
    "stdio: [\"inherit\", \"pipe\", \"pipe\"] \x7d);",
  "        \x7d catch (error) \x7b",
  "            const detail = error.stderr ? String(error.stderr).trim() : error.message;",
  "            throw new Error(`Command failed: $\x7bcommand\x7d: $\x7bdetail\x7d`);",
  "        \x7d",
  "    \x7d",
  "",
  "    now() \x7b",
  "        return Date.now();",
  "    \x7d",
  "",
  "    time() \x7b",
  "        return new Date().toISOString();",
  "    \x7d",
  "",
  "    sleep(ms) \x7b",
  "        return new Promise((resume) => setTimeout(resume, ms));",
  "    \x7d",
  "\x7d",
  "",
  "Object.defineProperty(globalThis, \"fenrir\", \x7b",
  "    value: FenrirBridge.instance(),",
  "    writable: false,",
  "    configurable: false,",
  "\x7d);",
  "// end of fenrir runtime prelude"]

/-- The prelude as it is written to its file. -/
def text : Text := source.flatMap fun l => l.toList ++ ['\n']

/-- The statement that loads the prelude. -/
def importLine : Text := "import \"./".toList ++ fileName.toList ++ "\";".toList

end Prelude

end Sandscript
