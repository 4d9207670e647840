import PathGlob.Regex.Language
import PathGlob.Main
import PathGlob.Proofs.Regex.Match
import PathGlob.Proofs.Regex.Nesting
import PathGlob.Proofs.Regex.Similarity
import PathGlob.Proofs.Regex.Alike
import PathGlob.Proofs.Regex.Building
import PathGlob.Proofs.Regex.Bracket
import PathGlob.Proofs.Regex.Reading
import PathGlob.Proofs.Glob.Lexeme
import PathGlob.Proofs.Path
import PathGlob.Proofs.Walk
import PathGlob.Proofs.Extended
import PathGlob.Proofs.Glob.Level
import PathGlob.Proofs.Globstar
import PathGlob.Proofs.Segments
import PathGlob.Proofs.Glob.Moves
import PathGlob.Proofs.Glob.Effect
import PathGlob.Proofs.Basic
import PathGlob.Proofs.Nesting
import PathGlob.Proofs.Anchors
import PathGlob.Proofs.Mirror
import PathGlob.Proofs.Lines
import PathGlob.Proofs.Command
import PathGlob.Proofs.Run
import PathGlob.Proofs.Count
import PathGlob.Proofs.Class
import PathGlob.Proofs.Glob.Stack
import PathGlob.Proofs.Glob.Tower
import PathGlob.Proofs.Unbuilt
import PathGlob.Proofs.Joined
import PathGlob.Proofs.Global
import PathGlob.Proofs.Collapsed
import PathGlob.Proofs.Negated
import PathGlob.Proofs.Regex.Ends
import PathGlob.Proofs.Glob.Demand
import PathGlob.Proofs.CollapsedSegments
import PathGlob.Proofs.Glob.Similarity
import PathGlob.Proofs.Strict
import PathGlob.Proofs.ClassUnion
import PathGlob.Proofs.Stacked
import PathGlob.Proofs.Lookup
import PathGlob.Proofs.Starred
import PathGlob.Proofs.Spelling
import PathGlob.Proofs.Flags
import PathGlob.Proofs.Extending
import PathGlob.Proofs.Shape
