import Lectern.Draft
import Lectern.Main
import Lectern.Proofs.Spans
import Lectern.Proofs.LineShapes
import Lectern.Proofs.Outlines
import Lectern.Proofs.Writing
import Lectern.Proofs.Steps
import Lectern.Proofs.Runs
import Lectern.Proofs.Nesting
import Lectern.Proofs.Outcomes
import Lectern.Proofs.Escaping
import Lectern.Proofs.EscapedLines
import Lectern.Proofs.Stages
import Lectern.Proofs.FirstSpans
import Lectern.Proofs.MathText
import Lectern.Proofs.VerbatimBlocks
import Lectern.Proofs.InlineText
import Lectern.Proofs.Borders
import Lectern.Proofs.Precedence
import Lectern.Proofs.Operations
import Lectern.Proofs.HeadAndBody
import Lectern.Proofs.HeadCommands
import Lectern.Proofs.LineContents
import Lectern.Proofs.OutsideLines
import Lectern.Proofs.SpanEnds
import Lectern.Proofs.ListStructure
import Lectern.Proofs.Layout
import Lectern.Proofs.StrictBlocks
import Lectern.Proofs.Streaming
import Lectern.Proofs.PathTexts
import Lectern.Proofs.Following
import Lectern.Proofs.Resolution
import Lectern.Files.Replacement
import Lectern.Proofs.Arguments
import Lectern.Proofs.CommandEndings
import Lectern.Proofs.MathBlocks
import Lectern.Proofs.Closing
import Lectern.Proofs.TabStops
import Lectern.Proofs.Encoding
import Lectern.Proofs.LineEnds
import Lectern.Proofs.FileVariants
import Lectern.Proofs.TableKeys
import Lectern.Proofs.SettingsEntries
import Lectern.Proofs.NearestSettings
import Lectern.Proofs.BrokenSettings
import Lectern.Proofs.FileOutcomes
import Lectern.Proofs.Beginnings
import Lectern.Proofs.ChosenSettings
import Lectern.Proofs.GlyphScans
import Lectern.Proofs.ControlWords
import Lectern.Proofs.Headings
import Lectern.Proofs.MergedLexemes
import Lectern.Proofs.LineForms
import Lectern.Proofs.LineLexemes
import Lectern.Proofs.SpanDepth
import Lectern.Proofs.SplitSpans
