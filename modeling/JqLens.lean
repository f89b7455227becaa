import JqLens.Main
import JqLens.Service.Router
import JqLens.Proofs.StageTokens
import JqLens.Proofs.Interpolation
import JqLens.Proofs.Cumulative
import JqLens.Proofs.Steps
import JqLens.Proofs.Denial
import JqLens.Proofs.Reread
import JqLens.Proofs.RefusedNames
import JqLens.Proofs.QuoteAgreement
import JqLens.Proofs.StageScan
import JqLens.Proofs.StageLayout
import JqLens.Proofs.LexicalGrammar
import JqLens.Proofs.MaximalMunch
import JqLens.Proofs.RoundTrip
import JqLens.Proofs.FilterLength
import JqLens.Proofs.Isolation
import JqLens.Proofs.FrontEnds
import JqLens.Proofs.Outcome
import JqLens.Proofs.BracketExtent
import JqLens.Proofs.LiteralExtent
import JqLens.Proofs.SliceForm
import JqLens.Proofs.BraceCount
import JqLens.Proofs.TokenRows
import JqLens.Proofs.HelpBlocks
import JqLens.Proofs.ProgramLookup
