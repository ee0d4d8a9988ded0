import GrammarBindings.Main
import GrammarBindings.Options.Fields
import GrammarBindings.Proofs.QuotedTexts
import GrammarBindings.Proofs.Words
import GrammarBindings.Proofs.CategoryNames
import GrammarBindings.Proofs.Margins
import GrammarBindings.Proofs.Lexemes
import GrammarBindings.Proofs.ScannedPieces
import GrammarBindings.Proofs.TextDivisions
import GrammarBindings.Proofs.WrittenTokens
import GrammarBindings.Proofs.Outcomes
import GrammarBindings.Proofs.Spelling
import GrammarBindings.Proofs.StatementSequence
import GrammarBindings.Proofs.ContributedRules
import GrammarBindings.Proofs.WrittenGrammar
import GrammarBindings.Proofs.TokenLines
import GrammarBindings.Proofs.BlamedLines
import GrammarBindings.Proofs.JoinedTexts
import GrammarBindings.Proofs.Encodings
import GrammarBindings.Proofs.LineEnds
import GrammarBindings.Proofs.DocumentLines
import GrammarBindings.Proofs.JoinAssociativity
import GrammarBindings.Proofs.LaidOutTexts
import GrammarBindings.Proofs.PlainDocuments
import GrammarBindings.Proofs.HangingJoins
import GrammarBindings.Proofs.ModuleLines
import GrammarBindings.Proofs.GeneratedModules
import GrammarBindings.Proofs.Pragmas
import GrammarBindings.Proofs.UnreadableNumerals
import GrammarBindings.Proofs.TomlSuffixes
import GrammarBindings.Proofs.LongNumerals
import GrammarBindings.Proofs.ConfigurationSearch
import GrammarBindings.Proofs.SettingsPrecedence
import GrammarBindings.Proofs.SignedNumerals
import GrammarBindings.Proofs.CalendarDays
import GrammarBindings.Proofs.CalendarMinutes
import GrammarBindings.Proofs.StampedTimes
import GrammarBindings.Proofs.Locations
import GrammarBindings.Proofs.PathBeginnings
import GrammarBindings.Proofs.NullBytes
import GrammarBindings.Proofs.RunOutcomes
import GrammarBindings.Proofs.WrittenOptions
import GrammarBindings.Proofs.SingleDashLines
import GrammarBindings.Proofs.OptionLines
import GrammarBindings.Proofs.DeclarationGroups
import GrammarBindings.Proofs.AbstractParts
import GrammarBindings.Proofs.AcceptedLines
import GrammarBindings.Proofs.ModulePlaces
import GrammarBindings.Proofs.Destinations
import GrammarBindings.Proofs.ReadNames
import GrammarBindings.Proofs.BracketedNames
import GrammarBindings.Proofs.JoinedGrammars
import GrammarBindings.Proofs.DeclaredNames
import GrammarBindings.Proofs.Signatures
import GrammarBindings.Proofs.SignatureTypes
import GrammarBindings.Proofs.DeclarationBlocks
import GrammarBindings.Proofs.FileTreeChanges
import GrammarBindings.Proofs.TemporaryFiles
import GrammarBindings.Proofs.RepeatedWriting
import GrammarBindings.Proofs.RunChanges
import GrammarBindings.Proofs.RepeatedRuns
import GrammarBindings.Proofs.RuleTokens
import GrammarBindings.Proofs.TokenDeclarations
import GrammarBindings.Proofs.FirstFailures
import GrammarBindings.Proofs.ListLanguages
import GrammarBindings.Proofs.InsertedStatements
import GrammarBindings.Proofs.RuleTexts
import GrammarBindings.Proofs.WrittenOutRules
import GrammarBindings.Proofs.SeparatedDocuments
import GrammarBindings.Proofs.RefusedDeclarations
import GrammarBindings.Proofs.PackageNames
import GrammarBindings.Proofs.PackageFlags
import GrammarBindings.Proofs.GlobalOptions
import GrammarBindings.Proofs.ShownFailures
import GrammarBindings.Proofs.CommandLineStyles
import GrammarBindings.Proofs.DoubleDashForms
