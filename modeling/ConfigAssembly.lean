import ConfigAssembly.Main
import ConfigAssembly.Plugin.Recipe
import ConfigAssembly.Verbosity
import ConfigAssembly.Proofs.Substitution.Fallback
import ConfigAssembly.Proofs.Taken.Delivery
import ConfigAssembly.Proofs.Binding.Agreement
import ConfigAssembly.Proofs.Build.SecondAttempt
import ConfigAssembly.Proofs.Build.Sensitive
import ConfigAssembly.Proofs.Configuration.Locality
import ConfigAssembly.Proofs.Configuration.Deferral
import ConfigAssembly.Proofs.CommandLine.Strict
import ConfigAssembly.Proofs.Configuration.Properties
import ConfigAssembly.Proofs.Configuration.Overrides
import ConfigAssembly.Proofs.Configuration.Escapes
import ConfigAssembly.Proofs.Configuration.References
import ConfigAssembly.Proofs.Yaml.Inclusion
import ConfigAssembly.Proofs.Document.Inclusion
import ConfigAssembly.Proofs.Plugin.Registration
import ConfigAssembly.Proofs.Plugin.Alias
import ConfigAssembly.Proofs.Configuration.Rebuild
import ConfigAssembly.Proofs.Configuration.Spelling
import ConfigAssembly.Proofs.Conversion.Soundness
import ConfigAssembly.Proofs.Plugin.Module
import ConfigAssembly.Proofs.Configuration.Frame
import ConfigAssembly.Proofs.Configuration.PropertiesBlock
import ConfigAssembly.Proofs.Taken.Precedence
import ConfigAssembly.Proofs.Taken.Succession
import ConfigAssembly.Proofs.Binding.Independence
import ConfigAssembly.Proofs.Conversion.Joining
import ConfigAssembly.Proofs.Conversion.Members
import ConfigAssembly.Proofs.Binding.Elements
import ConfigAssembly.Proofs.Substitution.Verbatim
import ConfigAssembly.Proofs.Conversion.Integers
import ConfigAssembly.Proofs.Configuration.TopLevel
import ConfigAssembly.Proofs.Document.Cycles
import ConfigAssembly.Proofs.Build.Foreign
