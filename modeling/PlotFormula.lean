import PlotFormula.Expr.Render
import PlotFormula.Expr.Sample
import PlotFormula.Grammar.Parse
import PlotFormula.Proofs.Grammar.Cuts
import PlotFormula.Proofs.Grammar.Masks
import PlotFormula.Proofs.Grammar.Written
import PlotFormula.Proofs.Grammar.Literals
import PlotFormula.Proofs.Grammar.Phrases
import PlotFormula.Proofs.Grammar.Forms
import PlotFormula.Proofs.Grammar.Reading
import PlotFormula.Proofs.Grammar.Composition
import PlotFormula.Proofs.Grammar.Indexed
import PlotFormula.Proofs.Grammar.Size
import PlotFormula.Proofs.Double.Packing
import PlotFormula.Proofs.Double.Rounding
import PlotFormula.Proofs.Grammar.Totality
import PlotFormula.Proofs.Double.Nearest
import PlotFormula.Proofs.Double.ReadBack
import PlotFormula.Proofs.Grammar.RoundTrip
import PlotFormula.Proofs.Double.Magnitude
import PlotFormula.Proofs.Expr.Evaluation
import PlotFormula.Proofs.Grammar.WellFormed
import PlotFormula.Proofs.Grammar.Numerals
import PlotFormula.Proofs.Grammar.ReadAgain
import PlotFormula.Proofs.Grammar.Refusal
import PlotFormula.Proofs.Grammar.Walk
import PlotFormula.Proofs.Grammar.Tables
import PlotFormula.Proofs.Grammar.Numeric
import PlotFormula.Proofs.Double.Order
import PlotFormula.Proofs.Catalog.Extremum
import PlotFormula.Proofs.Double.Flat
import PlotFormula.Proofs.Expr.Flat
import PlotFormula.Proofs.Expr.Exact
import PlotFormula.Proofs.Grammar.DecimalTexts
import PlotFormula.Proofs.Double.Rounded
import PlotFormula.Proofs.Double.Arithmetic
import PlotFormula.Proofs.Catalog.Rounding
import PlotFormula.Proofs.Expr.Sampling
import PlotFormula.Proofs.Catalog.Positions
import PlotFormula.Proofs.Expr.Calls
import PlotFormula.Proofs.Grammar.ArgumentLists
import PlotFormula.Proofs.Grammar.HiddenNames
import PlotFormula.Proofs.Grammar.ProductPlaces
import PlotFormula.Proofs.Text.FinalSigma
import PlotFormula.Proofs.Grammar.ForeignCharacters
import PlotFormula.Proofs.Grammar.Spaces
