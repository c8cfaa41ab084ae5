import HeyServer.Lib.Decimal
import HeyServer.Lib.Paths

/-!
# The numbers of a PHP-FPM pool

`SavePoolConfig` checks a request, fills its zero fields and prints the pool file. The numbers of
servers are filled one by one and never compared. Some texts are printed behind them without any
check, so that a line break in a text starts a directive of its own.

## Implementation notes

What the checks of the texts say is one argument. Of the file the numbers of servers and the texts
of the request are represented; the other lines hold fixed texts, other numbers and paths made of
the checked names of pool and version. How PHP-FPM reads a line is a parameter, held to read what is
printed. Of several lines for one number the last one counts.
-/

namespace HeyServer.Php
open Lib Text List Decimal

structure PoolConfig where
  domain : Bytes
  pm : Bytes
  maxChildren : Int
  startServers : Int
  minSpareServers : Int
  maxSpareServers : Int
  maxRequests : Int
  memoryLimit : Bytes
  maxExecutionTime : Int
  uploadMaxSize : Bytes
  postMaxSize : Bytes
  slowlogTimeout : Int
  openBasedir : Bytes
  disableFunctions : Bytes
  user : Bytes
  group : Bytes
  listenOwner : Bytes
  listenGroup : Bytes

def PoolConfig.manager (cfg : PoolConfig) : Bytes := if cfg.pm = [] then ascii "dynamic" else cfg.pm

def validatePoolConfig (textsOk : Bool) (cfg : PoolConfig) : Bool :=
  textsOk && cfg.manager ∈ [ascii "static", ascii "dynamic", ascii "ondemand"] &&
    0 ≤ cfg.maxChildren && cfg.maxChildren ≤ 500 && 0 ≤ cfg.maxRequests &&
      cfg.maxRequests ≤ 100000 &&
    0 ≤ cfg.maxExecutionTime && cfg.maxExecutionTime ≤ 3600 && 0 ≤ cfg.slowlogTimeout

def orDefault (n default : Int) : Int := if n = 0 then default else n

def orText (text : Bytes) (default : String) : Bytes := if text = [] then ascii default else text

def applyPoolConfigDefaults (cfg : PoolConfig) : PoolConfig :=
  let dynamic (n default : Int) := if cfg.manager = ascii "dynamic" then orDefault n default else n
  { cfg with
    pm := cfg.manager
    group := orText cfg.group "www-data"
    listenOwner := orText cfg.listenOwner "www-data"
    listenGroup := orText cfg.listenGroup "www-data"
    maxChildren := orDefault cfg.maxChildren 10
    startServers := dynamic cfg.startServers 2
    minSpareServers := dynamic cfg.minSpareServers 1
    maxSpareServers := dynamic cfg.maxSpareServers 3
    maxRequests := orDefault cfg.maxRequests 500
    memoryLimit := orText cfg.memoryLimit "256M"
    maxExecutionTime := orDefault cfg.maxExecutionTime 60
    uploadMaxSize := orText cfg.uploadMaxSize "32M"
    postMaxSize := orText cfg.postMaxSize "32M"
    disableFunctions := orText cfg.disableFunctions "opcache_get_status" }

/-! ## The file -/

/-- The numbers PHP-FPM compares. -/
inductive ServerCount
  | maxChildren | startServers | minSpareServers | maxSpareServers
  deriving DecidableEq

/-- The directives with a text of the request. -/
inductive TextSetting
  | user | group | listenOwner | listenGroup | openBasedir | disableFunctions | memoryLimit
  | uploadMaxFilesize | postMaxSize

def ServerCount.name : ServerCount → Bytes
  | .maxChildren => ascii "pm.max_children"
  | .startServers => ascii "pm.start_servers"
  | .minSpareServers => ascii "pm.min_spare_servers"
  | .maxSpareServers => ascii "pm.max_spare_servers"

def ServerCount.value (cfg : PoolConfig) : ServerCount → Int
  | .maxChildren => cfg.maxChildren
  | .startServers => cfg.startServers
  | .minSpareServers => cfg.minSpareServers
  | .maxSpareServers => cfg.maxSpareServers

def TextSetting.name : TextSetting → Bytes
  | .user => ascii "user"
  | .group => ascii "group"
  | .listenOwner => ascii "listen.owner"
  | .listenGroup => ascii "listen.group"
  | .openBasedir => ascii "php_admin_value[open_basedir]"
  | .disableFunctions => ascii "php_admin_value[disable_functions]"
  | .memoryLimit => ascii "php_admin_value[memory_limit]"
  | .uploadMaxFilesize => ascii "php_admin_value[upload_max_filesize]"
  | .postMaxSize => ascii "php_admin_value[post_max_size]"

def directive (name value : Bytes) : Bytes := name ++ ascii " = " ++ value

section Generate
variable (cfg : PoolConfig)

/-- The texts before the numbers. -/
def accountTexts : List (TextSetting × Bytes) :=
  [(.user, orText cfg.user "www-data"), (.group, orText cfg.group "www-data"),
    (.listenOwner, orText cfg.listenOwner "www-data"),
    (.listenGroup, orText cfg.listenGroup "www-data")]

/-- The numbers of servers that are printed. -/
def printedCounts : List ServerCount :=
  .maxChildren :: if cfg.manager = ascii "dynamic" then
    [.startServers, .minSpareServers, .maxSpareServers] else []

/-- The value of `open_basedir`; the default is below the root of the sites. -/
def openBasedirOf (vhostsRoot : Bytes) : Option Bytes :=
  if cfg.openBasedir ≠ [] ∨ cfg.domain = [] then some cfg.openBasedir
  else if vhostsRoot = [] then none
  else some (filepathJoin vhostsRoot cfg.domain ++ ascii ":/tmp/:/usr/share/php/")

/-- The texts after the numbers. -/
def limitTexts (openBasedir : Bytes) : List (TextSetting × Bytes) :=
  (if openBasedir ≠ [] then [(.openBasedir, openBasedir)] else []) ++
  [(.disableFunctions, orText cfg.disableFunctions "opcache_get_status"),
    (.memoryLimit, orText cfg.memoryLimit "256M"),
    (.uploadMaxFilesize, orText cfg.uploadMaxSize "32M"),
    (.postMaxSize, orText cfg.postMaxSize "32M")]

/-- The printed texts and numbers, in the order of the file. -/
def printed (openBasedir : Bytes) : List Bytes :=
  (accountTexts cfg).map (fun t => directive t.1.name t.2) ++
    ((printedCounts cfg).map (fun c => directive c.name (formatInt (c.value cfg))) ++
      (limitTexts cfg openBasedir).map fun t => directive t.1.name t.2)

def generatePoolConfig (vhostsRoot : Bytes) : Option Bytes :=
  (openBasedirOf cfg vhostsRoot).map fun openBasedir => join 0x0A (printed cfg openBasedir)

def savePoolConfig (textsOk : Bool) (vhostsRoot : Bytes) : Option Bytes :=
  if validatePoolConfig textsOk cfg then
    generatePoolConfig (applyPoolConfigDefaults cfg) vhostsRoot
  else none

end Generate

/-! ## Reading it -/

/-- How PHP-FPM reads the number of servers that a line sets. -/
structure Reader where
  count : Bytes → Option (ServerCount × Int)
  count_printed : ∀ (c : ServerCount) (n : Int),
    count (directive c.name (formatInt n)) = some (c, n)
  count_text : ∀ (t : TextSetting) (value : Bytes), count (directive t.name value) = none

namespace Reader

variable (reader : Reader)

/-- The numbers the lines of a text set. -/
def settings (text : Bytes) : List (ServerCount × Int) := (split 0x0A text).filterMap reader.count

/-- The numbers set by the lines of a text behind its first line. -/
def further (text : Bytes) : List (ServerCount × Int) :=
    (split 0x0A text).tail.filterMap reader.count

/-- The number that is set last. -/
def last (settings : List (ServerCount × Int)) (c : ServerCount) : Option Int :=
  settings.reverse.lookup c

/-- What PHP-FPM asks of the numbers of a dynamic pool. -/
def Startable (file : Bytes) : Prop :=
  ∃ least start most children, last (reader.settings file) .minSpareServers = some least ∧
    last (reader.settings file) .startServers = some start ∧
    last (reader.settings file) .maxSpareServers = some most ∧
    last (reader.settings file) .maxChildren = some children ∧
    1 ≤ least ∧ least ≤ start ∧ start ≤ most ∧ most ≤ children

/-- The number of a request, unless a further line of a text that is printed after it sets
another one. -/
def effective (cfg : PoolConfig) (openBasedir : Bytes) (c : ServerCount) : Int :=
  (last ((limitTexts cfg openBasedir).flatMap fun t => reader.further t.2) c).getD (c.value cfg)

theorem split_append_of_not_mem {sep : UInt8} {start : Bytes} (h : sep ∉ start) (text : Bytes) :
    split sep (start ++ text) = (start ++ (split sep text).head (split_ne_nil sep text)) ::
      (split sep text).tail := by
  induction start with
  | nil => simp
  | cons b start ih =>
    obtain ⟨hb, hstart⟩ := not_or.mp (mem_cons.not.mp h)
    rw [cons_append, split, if_neg (Ne.symm hb), ih hstart]
    rfl

/-- A text sets what its further lines set. -/
theorem settings_text (t : TextSetting) (value : Bytes) :
    reader.settings (directive t.name value) = reader.further value := by
  have hstart : 0x0A ∉ t.name ++ ascii " = " := by cases t <;> decide
  have hnone := reader.count_text t
  simp only [directive] at hnone
  rw [settings, further, directive, split_append_of_not_mem hstart, filterMap_cons, hnone]

theorem settings_count (c : ServerCount) (n : Int) :
    reader.settings (directive c.name (formatInt n)) = [(c, n)] := by
  have hnum := formatNat_numeral n.natAbs
  have hnat : 0x0A ∉ formatNat n.natAbs := fun hmem => by
    cases all_eq_true.mp hnum.digits 0x0A hmem
  have hdigits : 0x0A ∉ formatInt n := by
    rw [formatInt]
    split_ifs
    · rw [mem_cons, not_or]
      exact ⟨by decide, hnat⟩
    · exact hnat
  have hname : 0x0A ∉ c.name ++ ascii " = " := by cases c <;> decide
  have hline : 0x0A ∉ directive c.name (formatInt n) := by
    rw [directive, mem_append, not_or]
    exact ⟨hname, hdigits⟩
  rw [settings, split_of_not_mem hline, filterMap_cons, reader.count_printed]
  rfl

theorem last_append (a b : List (ServerCount × Int)) (c : ServerCount) :
    last (a ++ b) c = (last b c).or (last a c) := by
  rw [last, reverse_append, lookup_append]
  rfl

/-- The numbers of the file of a dynamic pool. -/
theorem last_settings {cfg : PoolConfig} (openBasedir : Bytes)
    (hpm : cfg.manager = ascii "dynamic") (c : ServerCount) :
    last (reader.settings (join 0x0A (printed cfg openBasedir))) c =
      some (reader.effective cfg openBasedir c) := by
  have hsettings : reader.settings (join 0x0A (printed cfg openBasedir)) =
      (printed cfg openBasedir).flatMap reader.settings := by
    have hne : printed cfg openBasedir ≠ [] := cons_ne_nil _ _
    rw [settings, split_join_flatMap hne, filterMap_flatMap]
    rfl
  have hcounts : (printedCounts cfg).flatMap (fun c => [(c, c.value cfg)]) =
      [ServerCount.maxChildren, .startServers, .minSpareServers, .maxSpareServers].map fun c =>
        (c, c.value cfg) := by
    rw [printedCounts, if_pos hpm]
    rfl
  have hprinted : last ([ServerCount.maxChildren, .startServers, .minSpareServers,
      .maxSpareServers].map fun c => (c, c.value cfg)) c = some (c.value cfg) := by
    cases c <;> rfl
  rw [hsettings, printed, flatMap_append, flatMap_append]
  simp only [flatMap_map, settings_text, settings_count]
  rw [hcounts, last_append, last_append, hprinted, effective]
  cases last ((limitTexts cfg openBasedir).flatMap fun t => reader.further t.2) c <;> rfl

end Reader

/-- A reader that takes lines just as they are printed. -/
def Reader.exact : Reader where
  count line :=
    ([ServerCount.maxChildren, .startServers, .minSpareServers, .maxSpareServers].find? fun c =>
      (directive c.name []).isPrefixOf line).bind fun c =>
        (integerLiteral (line.drop (c.name.length + 3))).map (c, ·)
  count_printed c n := by
    have hread := integerLiteral_formatInt n
    cases c <;> exact congrArg (Option.map _) hread
  count_text t value := by cases t <;> rfl

/-- A request that leaves all to the defaults. -/
def bareConfig : PoolConfig :=
  ⟨ascii "site", [], 0, 0, 0, 0, 0, [], 0, [], [], 0, [], [], [], [], [], []⟩

end HeyServer.Php
