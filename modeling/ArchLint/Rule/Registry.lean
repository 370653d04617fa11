import ArchLint.Config
import ArchLint.Rule.BaseClass
import ArchLint.Rule.Dependency
import ArchLint.Rule.Parameter

/-!
# The rules there are

Every rule has a name and a code and can be asked for by either.
-/

namespace ArchLint

def BaseClassRule.ofConfig (c : RuleConfig) : BaseClassRule :=
  let default : BaseClassRule := {}
  { suffix := c.string "suffix" default.suffix
    baseClass := c.string "base_class" default.baseClass
    message := c.text? "message"
    exemptedBy := c.text? "exempt_annotation"
    ignoreInnerClasses := c.bool "ignore_inner_classes" false }

def DependencyRule.ofConfig (c : RuleConfig) : DependencyRule :=
  let default : DependencyRule := {}
  { source := c.string "from" default.source
    target := c.string "to" default.target
    message := c.string "message" default.message }

namespace Registry

def all : List Rule :=
  [({} : BaseClassRule).toRule, ({} : DependencyRule).toRule, ({} : ParameterRule).toRule]

/-- A rule by its name or code, set up by its section of the configuration. -/
def find? (name : String) (config : Config) : Option Rule :=
  let options (rule : String) : RuleConfig := (config.rule? rule).getD {}
  if name = BaseClassRule.name ∨ name = BaseClassRule.code then
    some (BaseClassRule.ofConfig (options BaseClassRule.name)).toRule
  else if name = DependencyRule.name ∨ name = DependencyRule.code then
    some (DependencyRule.ofConfig (options DependencyRule.name)).toRule
  else if name = ParameterRule.name ∨ name = ParameterRule.code then
    some ({} : ParameterRule).toRule
  else none

/-- The rules with these names or codes; unknown ones are passed over. -/
def select (names : List String) (config : Config) : List Rule :=
  names.filterMap fun name => find? name config

def configured (config : Config) : List Rule :=
  select (all.map Rule.name) config

end Registry

end ArchLint
