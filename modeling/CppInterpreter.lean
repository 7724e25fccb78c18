import CppInterpreter.Loops
import CppInterpreter.Runs
import CppInterpreter.Worklist
import CppInterpreter.DelimiterSplit
import CppInterpreter.EscapedScan
import CppInterpreter.Strings
import CppInterpreter.ExpandEnvVars
import CppInterpreter.SplitPaths
import CppInterpreter.MetaLexer
import CppInterpreter.Lexemes
import CppInterpreter.LexerBounds
import CppInterpreter.LexerTiling
import CppInterpreter.GlobalValues
import CppInterpreter.ModulePasses
import CppInterpreter.ModulePipeline
import CppInterpreter.BackendPasses
import CppInterpreter.AllocatedValues
import CppInterpreter.ClangTypes
import CppInterpreter.Holders
import CppInterpreter.Values
import CppInterpreter.ReferenceCounts
import CppInterpreter.PushedTransactions
import CppInterpreter.AddIncludePaths
import CppInterpreter.PointerChecks
import CppInterpreter.SelfAssignment
import CppInterpreter.TypeSugar
import CppInterpreter.LongestMatch
import CppInterpreter.TokenGrammar
import CppInterpreter.LexerEnd
import CppInterpreter.CopyIncludePaths
import CppInterpreter.BuiltinValues
import CppInterpreter.ElementDestructors
import CppInterpreter.LastExpression
import CppInterpreter.TokenConstants
import CppInterpreter.QuotedLiterals
import CppInterpreter.SemicolonLexing
import CppInterpreter.QuietSplit
import CppInterpreter.SinglePassExpansion
import CppInterpreter.LookForFile
import CppInterpreter.Popen
import CppInterpreter.SystemLibraryPaths
import CppInterpreter.ManagedPayloads
import CppInterpreter.TransactionContents
import CppInterpreter.TransactionForest
import CppInterpreter.IncludedFiles
import CppInterpreter.CudaStructors
import CppInterpreter.PassReports
import CppInterpreter.ModuleSessions
import CppInterpreter.Ownership
import CppInterpreter.StateFiles
import CppInterpreter.TokenPrinting
import CppInterpreter.InterpreterScopes
import CppInterpreter.QuotedWords
import CppInterpreter.DiffCommands
import CppInterpreter.StateComparisons
import CppInterpreter.StateDumps
import CppInterpreter.PointerThreads
import CppInterpreter.DumpIncludePaths
import CppInterpreter.DynamicLinking
import CppInterpreter.LookaheadSessions
import CppInterpreter.NamedObjects
import CppInterpreter.ObjectLifetimes
import CppInterpreter.FirstBatches
import CppInterpreter.IncludePathSessions
