import ObjectQuery.Main
import ObjectQuery.Proofs.Sql.ReadBack
import ObjectQuery.Proofs.Sql.PlainTokens
import ObjectQuery.Proofs.Lowering.Kept
import ObjectQuery.Proofs.Lowering.StoredTables
import ObjectQuery.Proofs.SqlText
import ObjectQuery.Proofs.Grammar.Language
import ObjectQuery.Proofs.Interpreted
import ObjectQuery.Proofs.Polymorphic
import ObjectQuery.Proofs.Supplied
import ObjectQuery.Proofs.QualifiedColumns
import ObjectQuery.Proofs.TableNames
import ObjectQuery.Proofs.Failures
import ObjectQuery.Proofs.Model.Roots
import ObjectQuery.Proofs.Model.Places
import ObjectQuery.Proofs.Resolution.Exchange
import ObjectQuery.Proofs.ParameterTypes
import ObjectQuery.Proofs.Splitting
import ObjectQuery.Proofs.Typing
import ObjectQuery.Proofs.IndexTypes
import ObjectQuery.Proofs.Lowering.Arranged
import ObjectQuery.Proofs.JoinLists
import ObjectQuery.Proofs.Lowering.Spared
import ObjectQuery.Proofs.BulkChanges
import ObjectQuery.Proofs.Sql.Skeleton
import ObjectQuery.Proofs.Resolved.Skeleton
import ObjectQuery.Proofs.Lowering.Skeletons
import ObjectQuery.Proofs.Shapes
import ObjectQuery.Proofs.TargetNames
import ObjectQuery.Proofs.Token.Filler
import ObjectQuery.Proofs.Token.Spelling
import ObjectQuery.Proofs.Scanning
import ObjectQuery.Proofs.Grammar.FromItems
import ObjectQuery.Proofs.Registration
import ObjectQuery.Proofs.Grammar.Asked
import ObjectQuery.Proofs.Resolution.Numbered
import ObjectQuery.Proofs.ParameterNumbers
import ObjectQuery.Proofs.Grammar.NamePositions
import ObjectQuery.Proofs.Grammar.KeywordNames
import ObjectQuery.Proofs.Model.Reordering
import ObjectQuery.Proofs.Model.SecondaryTables
import ObjectQuery.Proofs.Model.TypeTexts
import ObjectQuery.Proofs.Quotations
import ObjectQuery.Proofs.Model.WrittenDefinitions
import ObjectQuery.Proofs.Expansion
import ObjectQuery.Proofs.Rewriting
