import TagPress.Main
import TagPress.Proofs.ConfiguredEngine
import TagPress.Proofs.TagEffect
import TagPress.Proofs.BlockRun
import TagPress.Proofs.AcceptedLanguage
import TagPress.Proofs.Nesting
import TagPress.Proofs.Cacheability
import TagPress.Proofs.Rendering
import TagPress.Proofs.Surroundings
import TagPress.Proofs.TrustedModifiers
import TagPress.Proofs.RecordLife
import TagPress.Proofs.CanonicalPath
import TagPress.Proofs.Containment
import TagPress.Proofs.NocacheArgument
import TagPress.Proofs.Braces
import TagPress.Proofs.FailingTag
import TagPress.Proofs.CacheIdentity
import TagPress.Proofs.PathSpelling
import TagPress.Proofs.DirectorySignature
import TagPress.Proofs.Extension
import TagPress.Proofs.Walks
import TagPress.Proofs.FoundFile
import TagPress.Proofs.StoredDirectories
import TagPress.Proofs.ListedTemplates
import TagPress.Proofs.ArgumentRules
import TagPress.Proofs.ClosingConditionals
import TagPress.Proofs.ModifierChains
import TagPress.Proofs.UnquotedCuts
import TagPress.Proofs.WrittenInvocations
import TagPress.Proofs.WrittenChains
import TagPress.Proofs.TargetGrammar
import TagPress.Proofs.DirectorySearch
import TagPress.Proofs.ParentRelative
import TagPress.Proofs.DirectoryKeys
import TagPress.Proofs.DirectorySegments
import TagPress.Proofs.AbsoluteNames
import TagPress.Proofs.Backslashes
import TagPress.Proofs.NormalForm
import TagPress.Proofs.ListedFiles
import TagPress.Proofs.NearestSettings
import TagPress.Proofs.Rechecks
import TagPress.Proofs.QuotedNames
